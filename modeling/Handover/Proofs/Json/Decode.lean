import Handover.Json.Decode
import Handover.Proofs.Json.Value

/-!
# Values written and read back

The small writers and readers of JSON values fit: a number in its range, labels, a list and an
optional value are read as what was written (`ranged?_int`, `labels?_ofLabels`, `list?_map`,
`nullable?_ofOption`). What the readers answer with is in range (`contains_of_ranged?`), and what
they find in a record was found within the record (`within_get?`).
-/

namespace Handover

namespace Json

variable {α : Type}

/-! ## Reading what was written -/

theorem ranged?_int {r : IntRange} {n : Int} (h : r.contains n = true) :
    ranged? r (int n) = some n :=
  if_pos h

theorem nat32?_int {n : Nat} (h : IntRange.unsigned32.contains n = true) :
    nat32? (int n) = some n := by
  rw [nat32?, ranged?_int h]
  rfl

theorem nat64?_int {n : Nat} (h : IntRange.unsigned64.contains n = true) :
    nat64? (int n) = some n := by
  rw [nat64?, ranged?_int h]
  rfl

theorem list?_map {write : α → Json} {item? : Json → Option α} {as : List α}
    (h : ∀ a ∈ as, item? (write a) = some a) : list? item? (arr (as.map write)) = some as := by
  rw [list?]
  induction as with
  | nil => rfl
  | cons a as ih =>
    have hrest := ih fun b hb => h b (List.mem_cons_of_mem a hb)
    simp only [List.map_cons, List.mapM_cons, h a List.mem_cons_self, hrest]
    rfl

/-- A list of any values is an array of them. -/
theorem list?_some {j : Json} {items : List Json} :
    list? some j = some items ↔ j = arr items := by
  have hmap : ∀ items : List Json, items.mapM some = some items := by
    intro items
    induction items with
    | nil => rfl
    | cons j rest ih => simp [List.mapM_cons, ih]
  cases j with
  | arr items => simp [list?, hmap]
  | _ => simp [list?]

theorem labels?_ofLabels (l : Labels) : labels? (ofLabels l) = some l := by
  have hentries : (l.entries.map fun e => (e.1, str e.2)).mapM
      (fun f => (str? f.2).map (f.1, ·)) = some l.entries := by
    induction l.entries with
    | nil => rfl
    | cons e rest ih =>
      simp only [List.map_cons, List.mapM_cons, ih]
      rfl
  exact (congrArg (Option.map Labels.ofEntries) hentries).trans
    (congrArg some (Labels.ofEntries_entries l))

theorem nullable?_ofOption {write : α → Json} {value? : Json → Option α} {o : Option α}
    (hnull : ∀ a, write a ≠ null) (h : ∀ a ∈ o, value? (write a) = some a) :
    nullable? value? (ofOption write o) = some o := by
  cases o with
  | none => rfl
  | some a =>
    have hread : nullable? value? (write a) = (value? (write a)).map some := by
      unfold nullable?
      split
      · next heq => exact absurd heq (hnull a)
      · rfl
    rw [ofOption, hread, h a rfl]
    rfl

/-! ## What was read is in range -/

theorem contains_of_ranged? {r : IntRange} {j : Json} {n : Int} (h : ranged? r j = some n) :
    r.contains n = true := by
  unfold ranged? at h
  split at h
  · split at h
    · next hn => rwa [← Option.some.inj h]
    · exact absurd h (by simp)
  · exact absurd h (by simp)

theorem contains_of_map_toNat {r : IntRange} (hlow : r.low = 0) {j : Json} {n : Nat}
    (h : (ranged? r j).map Int.toNat = some n) : r.contains n = true := by
  obtain ⟨m, hm, rfl⟩ := Option.map_eq_some_iff.1 h
  have hcontains := contains_of_ranged? hm
  have hnonneg := (IntRange.contains_iff.1 hcontains).1
  rwa [Int.toNat_of_nonneg (by omega)]

theorem contains_of_nat32? {j : Json} {n : Nat} (h : nat32? j = some n) :
    IntRange.unsigned32.contains n = true :=
  contains_of_map_toNat rfl h

theorem contains_of_nat64? {j : Json} {n : Nat} (h : nat64? j = some n) :
    IntRange.unsigned64.contains n = true :=
  contains_of_map_toNat rfl h

namespace Record

variable {r : Record} {position : Nat} {name : String} {value? : Json → Option α}

theorem get?_of_required {a : α} (h : r.required position name value? = some a) :
    ∃ j, r.get? position name = some j ∧ value? j = some a :=
  Option.bind_eq_some_iff.1 h

theorem defaulted_named {fields : List (String × Json)} {j : Json}
    (hj : Keyed.find? name fields = some j) (default : α) :
    (named fields).defaulted position name value? default = value? j := by
  rw [defaulted, get?, hj]

/-- What holds of the default and of all that is read holds of a field with a default. -/
theorem forall_of_defaulted {default a : α}
    (h : r.defaulted position name value? default = some a) {P : α → Prop} (hdefault : P default)
    (hread : ∀ j b, r.get? position name = some j → value? j = some b → P b) : P a := by
  unfold defaulted at h
  split at h
  · obtain rfl := Option.some.inj h
    exact hdefault
  · next j hj => exact hread j a hj h

/-- What holds of all that is read holds of a field that may be missing. -/
theorem forall_of_optional {o : Option α} (h : r.optional position name value? = some o)
    {P : α → Prop} (hread : ∀ j b, r.get? position name = some j → value? j = some b → P b) :
    ∀ a ∈ o, P a := by
  intro a ha
  obtain rfl := ha
  unfold optional at h
  split at h
  · exact absurd h (by simp)
  · exact absurd h (by simp)
  · next j hj =>
    unfold nullable? at h
    split at h
    · exact absurd h (by simp)
    · obtain ⟨b, hb, heq⟩ := Option.map_eq_some_iff.1 h
      obtain rfl := Option.some.inj heq
      exact hread _ _ hj hb

end Record

/-! ## What stands within a value -/

theorem Fits.of_signed32 {n : Int} (h : IntRange.signed32.contains n = true) : Fits n := by
  left
  rw [IntRange.contains_iff] at h ⊢
  simp only [IntRange.signed32, IntRange.signed64] at h ⊢
  omega

theorem Fits.of_signed64 {n : Int} (h : IntRange.signed64.contains n = true) : Fits n :=
  .inl h

theorem Fits.of_unsigned64 {n : Int} (h : IntRange.unsigned64.contains n = true) : Fits n :=
  .inr h

theorem Fits.of_unsigned32 {n : Int} (h : IntRange.unsigned32.contains n = true) : Fits n := by
  right
  rw [IntRange.contains_iff] at h ⊢
  simp only [IntRange.unsigned32, IntRange.unsigned64] at h ⊢
  omega

variable {depth : Nat} {good : Double → Prop}

theorem within_ofFields {fields : List (String × Json)}
    (h : ∀ f ∈ fields, Within depth good f.2) : Within (depth + 1) good (ofFields fields) :=
  within_obj_ofEntries h

theorem sorted_map_entries (l : Labels) :
    Keyed.Sorted (l.entries.map fun e => (e.1, str e.2)) :=
  List.pairwise_map.2 l.sorted

@[simp]
theorem within_ofLabels (l : Labels) : Within (depth + 1) good (ofLabels l) :=
  within_obj_iff.2 ⟨sorted_map_entries l, List.forall_mem_map.2 fun e _ => within_str e.2⟩

theorem within_ofOption {write : α → Json} {o : Option α}
    (h : ∀ a ∈ o, Within depth good (write a)) : Within depth good (ofOption write o) := by
  cases o with
  | none => exact within_null
  | some a => exact h a rfl

@[simp]
theorem within_ofOption_str (o : Option String) : Within depth good (ofOption str o) :=
  within_ofOption fun s _ => within_str s

theorem within_ofOption_int {o : Option Int}
    (h : ∀ n ∈ o, IntRange.signed32.contains n = true) : Within depth good (ofOption int o) :=
  within_ofOption fun n hn => within_int (Fits.of_signed32 (h n hn))

/-- What is found in a record stands within the value that the record is. -/
theorem within_get? {arity position : Nat} {name : String} {j k : Json} {r : Record}
    (hj : Within (depth + 1) good j) (hr : j.record? arity = some r)
    (hk : r.get? position name = some k) : Within depth good k := by
  cases j with
  | obj fields =>
    obtain rfl := Option.some.inj hr
    exact (within_obj_iff.1 hj).2 _ (Keyed.mem_of_find? hk)
  | arr items =>
    simp only [record?] at hr
    split at hr
    · obtain rfl := Option.some.inj hr
      exact within_arr_iff.1 hj _ (List.mem_of_getElem? hk)
    · exact absurd hr (by simp)
  | _ => exact absurd hr (by simp [record?])

end Json

end Handover
