import Handover.Json.Shape
import Handover.Proofs.Json.Text

/-!
# What the JSON reader answers with

Every value that is read out of a text is well formed, and arrays and objects stand no deeper within
each other than they may: the value of the whole text (`within_of_json?`), and that of a text whose
shape is known (`within_of_shaped?`).
-/

namespace Handover

namespace Json

theorem within_of_numeral {n : Numeral} {j : Json} (h : n.json? = some j) (depth : Nat) :
    j.Within depth fun _ => True := by
  unfold Numeral.json? at h
  dsimp only at h
  split at h
  · next hint =>
    obtain rfl := Option.some.inj h
    exact within_int (by simpa [Fits] using hint.2.2.1)
  · obtain ⟨x, -, rfl⟩ := Option.map_eq_some_iff.1 h
    exact within_real trivial

mutual

theorem within_of_json? (r : Raw) {depth : Nat} {j : Json} (h : r.json? depth = some j) :
    j.Within depth fun _ => True := by
  match r, depth with
  | .null, _ =>
    obtain rfl := Option.some.inj h
    exact within_null
  | .bool b, _ =>
    obtain rfl := Option.some.inj h
    exact within_bool b
  | .number n, depth => exact within_of_numeral h depth
  | .quoted pieces, _ =>
    obtain ⟨s, -, rfl⟩ := Option.map_eq_some_iff.1 h
    exact within_str s
  | .arr items, 0 => exact absurd h (by simp [Raw.json?])
  | .arr items, depth + 1 =>
    obtain ⟨js, hjs, rfl⟩ := Option.map_eq_some_iff.1 h
    exact within_arr_iff.2 (within_of_itemsJson? items hjs)
  | .obj members, 0 => exact absurd h (by simp [Raw.json?])
  | .obj members, depth + 1 =>
    obtain ⟨fields, hfields, rfl⟩ := Option.map_eq_some_iff.1 h
    exact within_obj_ofEntries (within_of_membersJson? members hfields)

theorem within_of_itemsJson? (items : List Raw) {depth : Nat} {js : List Json}
    (h : itemsJson? items depth = some js) : ∀ j ∈ js, j.Within depth fun _ => True := by
  match items with
  | [] =>
    obtain rfl := Option.some.inj h
    simp
  | r :: rest =>
    obtain ⟨j, hj, h⟩ := Option.bind_eq_some_iff.1 h
    obtain ⟨js', hjs, h⟩ := Option.bind_eq_some_iff.1 h
    obtain rfl := Option.some.inj h
    exact List.forall_mem_cons.2 ⟨within_of_json? r hj, within_of_itemsJson? rest hjs⟩

theorem within_of_membersJson? (members : List (List Piece × Raw)) {depth : Nat}
    {fields : List (String × Json)} (h : membersJson? members depth = some fields) :
    ∀ f ∈ fields, f.2.Within depth fun _ => True := by
  match members with
  | [] =>
    obtain rfl := Option.some.inj h
    simp
  | (key, r) :: rest =>
    obtain ⟨name, -, h⟩ := Option.bind_eq_some_iff.1 h
    obtain ⟨j, hj, h⟩ := Option.bind_eq_some_iff.1 h
    obtain ⟨fields', hfields, h⟩ := Option.bind_eq_some_iff.1 h
    obtain rfl := Option.some.inj h
    exact List.forall_mem_cons.2 ⟨within_of_json? r hj, within_of_membersJson? rest hfields⟩

end

mutual

theorem within_of_shaped? (r : Raw) {shape : Shape} {depth : Nat} {j : Json}
    (h : r.shaped? shape depth = some j) : j.Within depth fun _ => True := by
  unfold Raw.shaped? at h
  split at h
  · exact within_of_json? _ h
  · exact absurd h (by simp)
  -- an object of texts
  · obtain ⟨fields, hfields, h⟩ := Option.bind_eq_some_iff.1 h
    split at h
    · obtain rfl := Option.some.inj h
      exact within_obj_ofEntries (within_of_membersJson? _ hfields)
    · exact absurd h (by simp)
  -- a record under its names, and one in the order of its fields
  · obtain ⟨known, hknown, h⟩ := Option.bind_eq_some_iff.1 h
    split at h
    · obtain rfl := Option.some.inj h
      exact within_obj_ofEntries (within_of_knownMembers? _ hknown)
    · exact absurd h (by simp)
  · obtain ⟨js, hjs, rfl⟩ := Option.map_eq_some_iff.1 h
    exact within_arr_iff.2 (within_of_knownItems? _ hjs)
  · exact within_of_json? _ h

theorem within_of_knownMembers? (members : List (List Piece × Raw))
    {fields : List (String × Presence × Shape)} {depth : Nat} {known : List (String × Json)}
    (h : knownMembers? members fields depth = some known) :
    ∀ f ∈ known, f.2.Within depth fun _ => True := by
  match members with
  | [] =>
    obtain rfl := Option.some.inj h
    simp
  | (key, r) :: rest =>
    obtain ⟨name, -, h⟩ := Option.bind_eq_some_iff.1 h
    split at h
    · exact within_of_knownMembers? rest h
    · obtain ⟨j, hj, h⟩ := Option.bind_eq_some_iff.1 h
      obtain ⟨known', hknown, h⟩ := Option.bind_eq_some_iff.1 h
      obtain rfl := Option.some.inj h
      exact List.forall_mem_cons.2 ⟨within_of_shaped? r hj, within_of_knownMembers? rest hknown⟩

theorem within_of_knownItems? (items : List Raw) {fields : List (String × Presence × Shape)}
    {depth : Nat} {js : List Json} (h : knownItems? items fields depth = some js) :
    ∀ j ∈ js, j.Within depth fun _ => True := by
  match items, fields with
  | [], _ =>
    obtain rfl := Option.some.inj h
    simp
  | _ :: _, [] => exact absurd h (by simp [knownItems?])
  | r :: rest, (_, _, shape) :: fields =>
    obtain ⟨j, hj, h⟩ := Option.bind_eq_some_iff.1 h
    obtain ⟨js', hjs, h⟩ := Option.bind_eq_some_iff.1 h
    obtain rfl := Option.some.inj h
    exact List.forall_mem_cons.2 ⟨within_of_shaped? r hj, within_of_knownItems? rest hjs⟩

end

end Json

end Handover
