import Handover.Proofs.Json.Number

/-!
# What a JSON value holds

The values that the reader can answer with are `WellFormed`: their whole numbers fit 64 bits, and
their objects are sorted by key. A value is further measured by how deep arrays and objects stand
within each other (`nesting`) and by its numbers of double precision (`doubles`).
-/

namespace Handover

namespace Json

mutual

/-- A value whose whole numbers fit 64 bits and whose objects are sorted by key. -/
def WellFormed : Json → Prop
  | int n => Fits n
  | arr items => WellFormedItems items
  | obj fields => Keyed.Sorted fields ∧ WellFormedFields fields
  | _ => True

/-- Items that are well formed. -/
def WellFormedItems : List Json → Prop
  | [] => True
  | j :: rest => j.WellFormed ∧ WellFormedItems rest

/-- Fields that are well formed. -/
def WellFormedFields : List (String × Json) → Prop
  | [] => True
  | (_, j) :: rest => j.WellFormed ∧ WellFormedFields rest

end

mutual

/-- How deep arrays and objects stand within each other. -/
def nesting : Json → Nat
  | arr items => itemsNesting items + 1
  | obj fields => fieldsNesting fields + 1
  | _ => 0

/-- The greatest nesting of items. -/
def itemsNesting : List Json → Nat
  | [] => 0
  | j :: rest => max j.nesting (itemsNesting rest)

/-- The greatest nesting of fields. -/
def fieldsNesting : List (String × Json) → Nat
  | [] => 0
  | (_, j) :: rest => max j.nesting (fieldsNesting rest)

end

mutual

/-- The numbers of double precision in a value. -/
def doubles : Json → List Double
  | real x => [x]
  | arr items => itemsDoubles items
  | obj fields => fieldsDoubles fields
  | _ => []

/-- The numbers of double precision in items. -/
def itemsDoubles : List Json → List Double
  | [] => []
  | j :: rest => j.doubles ++ itemsDoubles rest

/-- The numbers of double precision in fields. -/
def fieldsDoubles : List (String × Json) → List Double
  | [] => []
  | (_, j) :: rest => j.doubles ++ fieldsDoubles rest

end

theorem wellFormedItems_iff {items : List Json} :
    WellFormedItems items ↔ ∀ j ∈ items, j.WellFormed := by
  induction items with
  | nil => simp [WellFormedItems]
  | cons j rest ih => simp [WellFormedItems, ih]

theorem wellFormedFields_iff {fields : List (String × Json)} :
    WellFormedFields fields ↔ ∀ f ∈ fields, f.2.WellFormed := by
  induction fields with
  | nil => simp [WellFormedFields]
  | cons f rest ih => simp [WellFormedFields, ih]

theorem itemsNesting_le_iff {items : List Json} {depth : Nat} :
    itemsNesting items ≤ depth ↔ ∀ j ∈ items, j.nesting ≤ depth := by
  induction items with
  | nil => simp [itemsNesting]
  | cons j rest ih => rw [itemsNesting, Nat.max_le, ih, List.forall_mem_cons]

theorem fieldsNesting_le_iff {fields : List (String × Json)} {depth : Nat} :
    fieldsNesting fields ≤ depth ↔ ∀ f ∈ fields, f.2.nesting ≤ depth := by
  induction fields with
  | nil => simp [fieldsNesting]
  | cons f rest ih => rw [fieldsNesting, Nat.max_le, ih, List.forall_mem_cons]

theorem mem_itemsDoubles {items : List Json} {x : Double} :
    x ∈ itemsDoubles items ↔ ∃ j ∈ items, x ∈ j.doubles := by
  induction items with
  | nil => simp [itemsDoubles]
  | cons j rest ih => simp [itemsDoubles, ih]

theorem mem_fieldsDoubles {fields : List (String × Json)} {x : Double} :
    x ∈ fieldsDoubles fields ↔ ∃ f ∈ fields, x ∈ f.2.doubles := by
  induction fields with
  | nil => simp [fieldsDoubles]
  | cons f rest ih => simp [fieldsDoubles, ih]

/-- A well-formed value in which arrays and objects stand at most `depth` deep and all numbers of
double precision are `good`. -/
structure Within (depth : Nat) (good : Double → Prop) (j : Json) : Prop where
  wellFormed : j.WellFormed
  nesting_le : j.nesting ≤ depth
  doubles : ∀ x ∈ j.doubles, good x

variable {depth : Nat} {good : Double → Prop}

@[simp]
theorem within_null : Within depth good null :=
  ⟨trivial, Nat.zero_le depth, by simp [Json.doubles]⟩

@[simp]
theorem within_bool (b : Bool) : Within depth good (bool b) :=
  ⟨trivial, Nat.zero_le depth, by simp [Json.doubles]⟩

@[simp]
theorem within_str (s : String) : Within depth good (str s) :=
  ⟨trivial, Nat.zero_le depth, by simp [Json.doubles]⟩

theorem within_int {n : Int} (h : Fits n) : Within depth good (int n) :=
  ⟨h, Nat.zero_le depth, by simp [Json.doubles]⟩

theorem within_real {x : Double} (h : good x) : Within depth good (real x) :=
  ⟨trivial, Nat.zero_le depth, by simpa [Json.doubles] using h⟩

theorem within_arr_iff {items : List Json} :
    Within (depth + 1) good (arr items) ↔ ∀ j ∈ items, Within depth good j := by
  constructor
  · rintro ⟨hwell, hnest, hgood⟩ j hj
    exact ⟨wellFormedItems_iff.1 hwell j hj,
      itemsNesting_le_iff.1 (Nat.le_of_succ_le_succ hnest) j hj,
      fun x hx => hgood x (mem_itemsDoubles.2 ⟨j, hj, hx⟩)⟩
  · intro h
    refine ⟨wellFormedItems_iff.2 fun j hj => (h j hj).wellFormed,
      Nat.succ_le_succ (itemsNesting_le_iff.2 fun j hj => (h j hj).nesting_le), fun x hx => ?_⟩
    obtain ⟨j, hj, hx⟩ := mem_itemsDoubles.1 hx
    exact (h j hj).doubles x hx

theorem within_obj_iff {fields : List (String × Json)} :
    Within (depth + 1) good (obj fields) ↔
      Keyed.Sorted fields ∧ ∀ f ∈ fields, Within depth good f.2 := by
  constructor
  · rintro ⟨⟨hsorted, hwell⟩, hnest, hgood⟩
    exact ⟨hsorted, fun f hf => ⟨wellFormedFields_iff.1 hwell f hf,
      fieldsNesting_le_iff.1 (Nat.le_of_succ_le_succ hnest) f hf,
      fun x hx => hgood x (mem_fieldsDoubles.2 ⟨f, hf, hx⟩)⟩⟩
  · rintro ⟨hsorted, h⟩
    refine ⟨⟨hsorted, wellFormedFields_iff.2 fun f hf => (h f hf).wellFormed⟩,
      Nat.succ_le_succ (fieldsNesting_le_iff.2 fun f hf => (h f hf).nesting_le), fun x hx => ?_⟩
    obtain ⟨f, hf, hx⟩ := mem_fieldsDoubles.1 hx
    exact (h f hf).doubles x hx

theorem within_obj_ofEntries {fields : List (String × Json)}
    (h : ∀ f ∈ fields, Within depth good f.2) :
    Within (depth + 1) good (obj (Keyed.ofEntries fields)) :=
  within_obj_iff.2 ⟨Keyed.sorted_ofEntries fields,
    fun f hf => h f (Keyed.mem_of_mem_ofEntries hf)⟩

end Json

end Handover
