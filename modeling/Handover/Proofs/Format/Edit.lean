import Handover.Json.Shape
import Handover.Proofs.Json.Decode

/-!
# Edited records

An `Edit` leaves fields out of a written record, adds fields to it, and edits the records within it,
as far as the `Shape` of the record permits. What a field of an edited record reads as follows from
the edit alone (`find?_fields`), and so does what a reader makes of it: a field left out takes its
default (`Record.defaulted_edited`, `Record.optional_edited`), and fields added under other names
are not looked at.
-/

namespace Handover

/-- A change to a written value: none, or fields left out, fields added, and a change to what each
field holds. -/
inductive Edit where
  | keep
  | change (omitted : List String) (added : List (String × Json)) (within : String → Edit)

namespace Edit

/-- Whether a field is left out. -/
def omits : Edit → String → Bool
  | keep, _ => false
  | change omitted _ _, name => omitted.contains name

/-- The fields that are added. -/
def added : Edit → List (String × Json)
  | keep => []
  | change _ added _ => added

/-- The change to what a field holds. -/
def within : Edit → String → Edit
  | keep, _ => keep
  | change _ _ within, name => within name

/-- The value that an edit makes of a value; only objects have fields. -/
def apply : Edit → Json → Json
  | change omitted added within, .obj fields =>
    .ofFields <| ((fields.filter fun f => !omitted.contains f.1).map fun f =>
      (f.1, (within f.1).apply f.2)) ++ added
  | _, j => j

/-- An edit that leaves out only fields that may be missing, and adds only fields under other names,
in a value of a shape and in what its fields hold. -/
def Permitted : Edit → Shape → Prop
  | keep, _ => True
  | change omitted added within, .record fields =>
    ∀ field ∈ fields, (omitted.contains field.1 = true → field.2.1 = .optional) ∧
      (∀ f ∈ added, f.1 ≠ field.1) ∧ (within field.1).Permitted field.2.2
  | change _ _ _, _ => False

@[simp]
theorem apply_keep (j : Json) : keep.apply j = j := by
  cases j <;> rfl

@[simp]
theorem omits_keep (name : String) : keep.omits name = false :=
  rfl

@[simp]
theorem within_keep (name : String) : keep.within name = keep :=
  rfl

/-- An edit without the fields that it adds. -/
def bare : Edit → Edit
  | keep => keep
  | change omitted _ within => change omitted [] fun name => (within name).bare

@[simp]
theorem omits_bare (e : Edit) (name : String) : e.bare.omits name = e.omits name := by
  cases e <;> rfl

@[simp]
theorem within_bare (e : Edit) (name : String) : e.bare.within name = (e.within name).bare := by
  cases e <;> rfl

theorem Permitted.bare {e : Edit} {shape : Shape} (h : e.Permitted shape) :
    e.bare.Permitted shape := by
  induction e generalizing shape with
  | keep => trivial
  | change omitted added within ih =>
    cases shape with
    | record fields =>
      intro field hfield
      obtain ⟨homit, -, hwithin⟩ := h field hfield
      exact ⟨homit, by simp, ih field.1 hwithin⟩
    | _ => exact absurd h id

/-- Only records are edited. -/
theorem eq_keep_of_permitted {e : Edit} {shape : Shape} (h : e.Permitted shape)
    (hshape : ∀ fields, shape ≠ .record fields) : e = keep := by
  cases e with
  | keep => rfl
  | change omitted added within =>
    cases shape with
    | record fields => exact absurd rfl (hshape fields)
    | _ => exact absurd h id

/-- What an edit may do to a field. -/
structure PermittedAt (e : Edit) (name : String) (presence : Presence) (shape : Shape) : Prop where
  optional_of_omits : e.omits name = true → presence = .optional
  added_ne : ∀ f ∈ e.added, f.1 ≠ name
  within : (e.within name).Permitted shape

theorem Permitted.at {e : Edit} {fields : List (String × Presence × Shape)}
    (h : e.Permitted (.record fields)) {name : String} {presence : Presence} {shape : Shape}
    (hfield : (name, presence, shape) ∈ fields) : e.PermittedAt name presence shape := by
  cases e with
  | keep => exact ⟨fun h => absurd h (by simp), fun f hf => absurd hf List.not_mem_nil, trivial⟩
  | change omitted added within =>
    obtain ⟨homit, hadd, hwithin⟩ := h _ hfield
    exact ⟨homit, hadd, hwithin⟩

/-- The fields that an edit makes of the fields of an object. -/
def fields (e : Edit) (fields : List (String × Json)) : List (String × Json) :=
  match e with
  | keep => fields
  | change omitted added within =>
    Keyed.ofEntries <| ((fields.filter fun f => !omitted.contains f.1).map fun f =>
      (f.1, (within f.1).apply f.2)) ++ added

theorem apply_obj (e : Edit) (fields : List (String × Json)) :
    e.apply (.obj fields) = .obj (e.fields fields) := by
  cases e <;> rfl

/-- A field under a name that is not added is there if it is not left out, and holds what the edit
within it makes of it. -/
theorem find?_fields {e : Edit} {fields : List (String × Json)} (hsorted : Keyed.Sorted fields)
    {name : String} (hadded : ∀ f ∈ e.added, f.1 ≠ name) :
    Keyed.find? name (e.fields fields) =
      if e.omits name then none else (Keyed.find? name fields).map (e.within name).apply := by
  cases e with
  | keep =>
    cases h : Keyed.find? name fields with
    | none => simp [Edit.fields, h]
    | some j => simp [Edit.fields, h]
  | change omitted added within =>
    have hkept : Keyed.Sorted ((fields.filter fun f => !omitted.contains f.1).map fun f =>
        (f.1, (within f.1).apply f.2)) :=
      List.pairwise_map.2 (hsorted.filter _)
    have hnone : Keyed.find? name added.reverse = none :=
      Keyed.find?_eq_none fun f hf => hadded f (List.mem_reverse.1 hf)
    -- of entries with one name the last one counts, and those that were added come last
    rw [Edit.fields, Keyed.find?_ofEntries, List.reverse_append, Keyed.find?_append, hnone,
      Option.none_or, Keyed.find?_reverse_of_sorted name hkept,
      Keyed.find?_map name fun key => (within key).apply,
      Keyed.find?_filter name fun key => !omitted.contains key]
    cases h : omitted.contains name <;> simp only [omits, Edit.within, h] <;> rfl

/-- The value of a field in an edited record: its default if the field is left out, and otherwise
what the edit within it makes of it. -/
def settle {α : Type} (e : Edit) (name : String) (default : α) (reset : Edit → α → α) (a : α) : α :=
  if e.omits name then default else reset (e.within name) a

/-- The value of a field that holds no record. -/
def leave {α : Type} (e : Edit) (name : String) (default a : α) : α :=
  e.settle name default (fun _ a => a) a

theorem settle_bare {α : Type} (e : Edit) (name : String) (default : α) {reset : Edit → α → α}
    (hreset : ∀ e a, reset e.bare a = reset e a) (a : α) :
    e.bare.settle name default reset a = e.settle name default reset a := by
  simp only [settle, omits_bare, within_bare, hreset]

@[simp]
theorem leave_bare {α : Type} (e : Edit) (name : String) (default a : α) :
    e.bare.leave name default a = e.leave name default a :=
  settle_bare e name default (fun _ _ => rfl) a

/-- The fields that an edit keeps, without those that it adds. -/
def kept (e : Edit) (fields : List (String × Json)) : List (String × Json) :=
  (fields.filter fun f => !e.omits f.1).map fun f => (f.1, (e.within f.1).bare.apply f.2)

theorem sorted_kept (e : Edit) {fields : List (String × Json)} (h : Keyed.Sorted fields) :
    Keyed.Sorted (e.kept fields) :=
  List.pairwise_map.2 (h.filter _)

theorem apply_bare_obj (e : Edit) {fields : List (String × Json)} (h : Keyed.Sorted fields) :
    e.bare.apply (.obj fields) = .obj (e.kept fields) := by
  cases e with
  | keep =>
    have hall : fields.filter (fun _ => true) = fields := List.filter_eq_self.2 fun _ _ => rfl
    simp [kept, bare, hall]
  | change omitted added within =>
    have hsorted : Keyed.Sorted (kept (change omitted added within) fields) := sorted_kept _ h
    rw [bare, apply, List.append_nil]
    exact congrArg Json.obj (Keyed.ofEntries_of_sorted hsorted)

/-- Leaving fields out makes no value deeper and adds no number to it. -/
theorem within_apply_bare (e : Edit) {depth : Nat} {good : Double → Prop} {j : Json}
    (h : j.Within depth good) : (e.bare.apply j).Within depth good := by
  induction e generalizing depth j with
  | keep => rwa [bare, apply_keep]
  | change omitted added within ih =>
    cases j with
    | obj fields =>
      obtain ⟨depth, rfl⟩ : ∃ d, depth = d + 1 :=
        Nat.exists_eq_succ_of_ne_zero (Nat.ne_zero_of_lt h.nesting_le)
      obtain ⟨hsorted, hfields⟩ := Json.within_obj_iff.1 h
      rw [apply_bare_obj _ hsorted]
      refine Json.within_obj_iff.2 ⟨sorted_kept _ hsorted, List.forall_mem_map.2 fun f hf => ?_⟩
      exact ih f.1 (hfields f (List.mem_filter.1 hf).1)
    | _ => exact h

end Edit

/-! ## Reading an edited record -/

namespace Json

namespace Record

variable {α : Type} {e : Edit} {fields : List (String × Json)} (hsorted : Keyed.Sorted fields)
  {position : Nat} {name : String} {presence : Presence} {shape : Shape} {value? : Json → Option α}
include hsorted

theorem get?_edited (he : e.PermittedAt name presence shape) {j : Json}
    (hj : Keyed.find? name fields = some j) :
    (named (e.fields fields)).get? position name =
      if e.omits name then none else some ((e.within name).apply j) := by
  rw [get?, Edit.find?_fields hsorted he.added_ne, hj, Option.map_some]

theorem required_edited (he : e.PermittedAt name .required shape) {j : Json}
    (hj : Keyed.find? name fields = some j) {a : α}
    (ha : value? ((e.within name).apply j) = some a) :
    (named (e.fields fields)).required position name value? = some a := by
  have homits : e.omits name = false := by
    cases h : e.omits name with
    | false => rfl
    | true => exact absurd (he.optional_of_omits h) (by decide)
  rw [required, get?_edited hsorted he hj, homits]
  exact ha

theorem defaulted_edited (reset : Edit → α → α) (a default : α)
    (he : e.PermittedAt name presence shape) {j : Json} (hj : Keyed.find? name fields = some j)
    (ha : value? ((e.within name).apply j) = some (reset (e.within name) a)) :
    (named (e.fields fields)).defaulted position name value? default =
      some (e.settle name default reset a) := by
  rw [defaulted, get?_edited hsorted he hj, Edit.settle]
  cases e.omits name with
  | true => rfl
  | false => exact ha

theorem optional_edited (reset : Edit → Option α → Option α) (a : Option α)
    (he : e.PermittedAt name presence shape) {j : Json} (hj : Keyed.find? name fields = some j)
    (ha : nullable? value? ((e.within name).apply j) = some (reset (e.within name) a)) :
    (named (e.fields fields)).optional position name value? =
      some (e.settle name none reset a) := by
  have hget : (named (e.fields fields)).get? position name =
      if e.omits name then none else some ((e.within name).apply j) :=
    get?_edited hsorted he hj
  rw [Edit.settle]
  cases h : e.omits name with
  | true =>
    rw [h] at hget
    simp only [optional, hget]
    rfl
  | false =>
    rw [h] at hget
    simp only [optional, hget]
    exact ha

/-! ### Fields that hold no record -/

theorem required_unedited (shape : Shape) (hshape : ∀ fields, shape ≠ .record fields) (j : Json)
    (he : e.PermittedAt name .required shape) (hj : Keyed.find? name fields = some j) {a : α}
    (ha : value? j = some a) :
    (named (e.fields fields)).required position name value? = some a := by
  refine required_edited hsorted he hj ?_
  rwa [Edit.eq_keep_of_permitted he.within hshape, Edit.apply_keep]

theorem defaulted_unedited (shape : Shape) (hshape : ∀ fields, shape ≠ .record fields) (j : Json)
    {a default : α} (he : e.PermittedAt name .optional shape)
    (hj : Keyed.find? name fields = some j) (ha : value? j = some a) :
    (named (e.fields fields)).defaulted position name value? default =
      some (e.leave name default a) := by
  refine defaulted_edited hsorted (fun _ a => a) a default he hj ?_
  rwa [Edit.eq_keep_of_permitted he.within hshape, Edit.apply_keep]

theorem required_leaf (j : Json) (he : e.PermittedAt name .required .leaf)
    (hj : Keyed.find? name fields = some j) {a : α} (ha : value? j = some a) :
    (named (e.fields fields)).required position name value? = some a :=
  required_unedited hsorted .leaf (by simp) j he hj ha

theorem defaulted_leaf (j : Json) {a default : α} (he : e.PermittedAt name .optional .leaf)
    (hj : Keyed.find? name fields = some j) (ha : value? j = some a) :
    (named (e.fields fields)).defaulted position name value? default =
      some (e.leave name default a) :=
  defaulted_unedited hsorted .leaf (by simp) j he hj ha

theorem optional_leaf (write : α → Json) (o : Option α) (he : e.PermittedAt name .optional .leaf)
    (hj : Keyed.find? name fields = some (ofOption write o))
    (hnull : ∀ a, write a ≠ null) (ho : ∀ a ∈ o, value? (write a) = some a) :
    (named (e.fields fields)).optional position name value? = some (e.leave name none o) := by
  refine optional_edited hsorted (fun _ o => o) o he hj ?_
  rw [Edit.eq_keep_of_permitted he.within (by simp), Edit.apply_keep]
  exact nullable?_ofOption hnull ho

end Record

end Json

end Handover
