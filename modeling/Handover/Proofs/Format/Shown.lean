import Handover.Proofs.Format.Edit
import Handover.Proofs.Json.Reader

/-!
# Texts of edited records

What is written for a record `Holds` its shape, and is then read alike with its shape and without
(`shaped?_raw`). A text `Shows` a value as an edit leaves it if it writes each field that is kept
once, in any order, and no field that is left out; members under other names may hold anything. Such
a text is read as what the edit makes of the value (`Shows.shaped?`). The text that is written for
an edited value is one of them as far as the fields that are kept last (`Holds.shows`).
-/

namespace Handover

open Json

/-! ## Values with a shape -/

/-- A value with a shape, or null. The fields of a record are known, and each stands once. -/
inductive Shape.Holds : Shape → Json → Prop
  | leaf (j : Json) : Holds .leaf j
  | null (shape : Shape) : Holds shape .null
  | choice (s : String) : Holds .choice (.str s)
  | texts (l : Labels) : Holds .texts (.ofLabels l)
  | record {fields : List (String × Presence × Shape)} {fs : List (String × Json)}
      (sorted : Keyed.Sorted fs) (known : ∀ f ∈ fs, (field? fields f.1).isSome)
      (holds : ∀ f ∈ fs, ∀ shape, field? fields f.1 = some shape → Holds shape f.2) :
      Holds (.record fields) (.obj fs)

attribute [simp] Shape.Holds.leaf Shape.Holds.choice Shape.Holds.texts

theorem Shape.exists_field? {fields : List (String × Presence × Shape)} {fs : List (String × Json)}
    (names : fields.map Prod.fst = fs.map Prod.fst) (nodup : (fs.map Prod.fst).Nodup)
    (holds : ∀ p ∈ fields.zip fs, p.1.2.2.Holds p.2.2) {f : String × Json} (hf : f ∈ fs) :
    ∃ shape, field? fields f.1 = some shape ∧ shape.Holds f.2 := by
  induction fields generalizing fs with
  | nil =>
    obtain rfl := List.map_eq_nil_iff.1 names.symm
    exact absurd hf List.not_mem_nil
  | cons field fields ih =>
    obtain ⟨g, fs, rfl, hname, hnames⟩ := List.map_eq_cons_iff.1 names.symm
    obtain ⟨hnew, hnodup⟩ := List.nodup_cons.1 nodup
    obtain ⟨hholds, hrest⟩ := List.forall_mem_cons.1 holds
    rw [field?, Keyed.find?_cons]
    obtain rfl | hf := List.mem_cons.1 hf
    · exact ⟨field.2.2, by rw [if_pos hname.symm]; rfl, hholds⟩
    · have hne : field.1 ≠ f.1 := fun heq =>
        hnew (List.mem_map.2 ⟨f, hf, heq.symm.trans hname.symm⟩)
      rw [if_neg hne]
      exact ih hnames.symm hnodup hrest hf

/-- A record written with all fields of a shape holds it, if its fields do. -/
theorem Shape.holds_ofFields {fields : List (String × Presence × Shape)} {fs : List (String × Json)}
    (names : fields.map Prod.fst = fs.map Prod.fst) (nodup : (fs.map Prod.fst).Nodup)
    (holds : ∀ p ∈ fields.zip fs, p.1.2.2.Holds p.2.2) :
    (Shape.record fields).Holds (.ofFields fs) := by
  refine .record (Keyed.sorted_ofEntries fs) (fun f hf => ?_) fun f hf shape hshape => ?_
  · obtain ⟨shape, hshape, -⟩ := exists_field? names nodup holds (Keyed.mem_of_mem_ofEntries hf)
    rw [hshape]
    rfl
  · obtain ⟨shape', hshape', hholds⟩ :=
      exists_field? names nodup holds (Keyed.mem_of_mem_ofEntries hf)
    obtain rfl := Option.some.inj (hshape.symm.trans hshape')
    exact hholds

theorem Shape.holds_ofOption {α : Type} {shape : Shape} {write : α → Json} {o : Option α}
    (h : ∀ a ∈ o, shape.Holds (write a)) : shape.Holds (.ofOption write o) := by
  cases o with
  | none => exact .null shape
  | some a => exact h a rfl

namespace Json

theorem shaped?_leaf (r : Raw) (depth : Nat) : r.shaped? .leaf depth = r.json? depth := by
  rw [Raw.shaped?] <;> simp

theorem rawFields_eq_map (fields : List (String × Json)) :
    rawFields fields = fields.map fun f => (pieces f.1, f.2.raw) := by
  induction fields with
  | nil => rfl
  | cons f rest ih => rw [rawFields, ih, List.map_cons]

theorem membersJson?_texts (entries : List (String × String)) (depth : Nat) :
    membersJson? (rawFields (entries.map fun e => (e.1, str e.2))) depth =
      some (entries.map fun e => (e.1, str e.2)) := by
  induction entries with
  | nil => rfl
  | cons e rest ih =>
    refine membersJson?_cons.2 ⟨str e.2, _, ?_, ih, rfl⟩
    simp [raw, Raw.json?]

/-- The members of a record are all known where it holds its shape. -/
theorem knownMembers?_rawFields {fields : List (String × Presence × Shape)}
    {fs : List (String × Json)} {depth : Nat}
    (known : ∀ f ∈ fs, (Shape.field? fields f.1).isSome)
    (alike : ∀ f ∈ fs, ∀ shape, Shape.field? fields f.1 = some shape →
      f.2.raw.shaped? shape depth = f.2.raw.json? depth) :
    knownMembers? (rawFields fs) fields depth = membersJson? (rawFields fs) depth := by
  induction fs with
  | nil => rfl
  | cons f rest ih =>
    obtain ⟨shape, hshape⟩ := Option.isSome_iff_exists.1 (known f List.mem_cons_self)
    have hrest := ih (fun g hg => known g (List.mem_cons_of_mem f hg))
      fun g hg => alike g (List.mem_cons_of_mem f hg)
    simp only [rawFields, knownMembers?, membersJson?, text?_pieces, Option.bind_eq_bind,
      Option.bind_some, hshape, hrest, alike f List.mem_cons_self shape hshape]

end Json

/-- What is written for a value with a shape is read alike with the shape and without. -/
theorem Shape.Holds.shaped?_raw {shape : Shape} {j : Json} (h : shape.Holds j) (depth : Nat) :
    j.raw.shaped? shape depth = j.raw.json? depth := by
  induction h generalizing depth with
  | leaf j => exact shaped?_leaf j.raw depth
  | null shape => rw [Json.raw, Raw.shaped?] <;> simp
  | choice s => rw [Json.raw, Raw.shaped?] <;> simp
  | texts l =>
    cases depth with
    | zero => rw [ofLabels, Json.raw, Raw.shaped?] <;> simp
    | succ depth =>
      rw [ofLabels, Json.raw, Raw.shaped?, Raw.json?, membersJson?_texts]
      simp
  | @record fields fs sorted known _ ih =>
    cases depth with
    | zero => rw [Json.raw, Raw.shaped?] <;> simp
    | succ depth =>
      rw [Json.raw, Raw.shaped?, Raw.json?,
        knownMembers?_rawFields known fun f hf shape hshape => ih f hf shape hshape depth]
      cases hread : membersJson? (rawFields fs) depth with
      | none => rfl
      | some fs' =>
        have hnodup : (fs'.map Prod.fst).Nodup :=
          keys_membersJson? hread ▸ Keyed.nodup_keys_of_sorted sorted
        exact if_pos hnodup

/-! ## Texts that show an edited value -/

namespace Edit

/-- A text, taken apart, that writes a value as an edit leaves it. The members of a record under the
names of its fields are the fields that the edit keeps, in any order; its other members are any. -/
inductive Shows : Edit → Shape → (depth : Nat) → Raw → Json → Prop
  | keep {shape : Shape} {depth : Nat} {r : Raw} {j : Json}
      (read : r.shaped? shape depth = some j) : Shows .keep shape depth r j
  | null (e : Edit) (shape : Shape) (depth : Nat) : Shows e shape depth .null .null
  | record {e : Edit} {fields : List (String × Presence × Shape)} {depth : Nat}
      {members : List (List Piece × Raw)} {fs : List (String × Json)}
      (named : List (String × Raw)) (part : String → Raw)
      (names : (members.map fun m => (text? m.1, m.2)) = named.map fun m => (some m.1, m.2))
      (known : (named.filter fun m => (Shape.field? fields m.1).isSome).Perm
        ((fs.filter fun f => !e.omits f.1).map fun f => (f.1, part f.1)))
      (parts : ∀ f ∈ fs, e.omits f.1 = false → ∀ shape, Shape.field? fields f.1 = some shape →
        Shows (e.within f.1) shape depth (part f.1) f.2) :
      Shows e (.record fields) (depth + 1) (.obj members) (.obj fs)

end Edit

/-- The members under known names are read one by one. -/
theorem Json.knownMembers?_of_named {fields : List (String × Presence × Shape)} {depth : Nat}
    {members : List (List Piece × Raw)} {named : List (String × Raw)} {value : String → Json}
    (names : (members.map fun m => (text? m.1, m.2)) = named.map fun m => (some m.1, m.2))
    (read : ∀ m ∈ named, ∀ shape, Shape.field? fields m.1 = some shape →
      m.2.shaped? shape depth = some (value m.1)) :
    knownMembers? members fields depth =
      some ((named.filter fun m => (Shape.field? fields m.1).isSome).map
        fun m => (m.1, value m.1)) := by
  induction named generalizing members with
  | nil =>
    obtain rfl := List.map_eq_nil_iff.1 names
    rfl
  | cons n named ih =>
    obtain ⟨name, r⟩ := n
    obtain ⟨⟨key, r'⟩, rest, rfl, hm, hrest⟩ := List.map_eq_cons_iff.1 names
    obtain ⟨hname, rfl⟩ : text? key = some name ∧ r' = r := Prod.mk.inj hm
    have htail := ih hrest fun m hm => read m (List.mem_cons_of_mem _ hm)
    cases hfield : Shape.field? fields name with
    | none => simp [knownMembers?, hname, hfield, htail]
    | some shape =>
      simp [knownMembers?, hname, hfield, htail, read _ List.mem_cons_self shape hfield]

/-- A text that shows a value as an edit leaves it is read as what the edit, apart from the fields
it adds, makes of the value. -/
theorem Edit.Shows.shaped? {e : Edit} {shape : Shape} {depth : Nat} {r : Raw} {j : Json}
    (h : e.Shows shape depth r j) (hj : j.WellFormed) :
    r.shaped? shape depth = some (e.bare.apply j) := by
  induction h with
  | keep read => rw [read, bare, apply_keep]
  | null e shape depth =>
    have happly : e.bare.apply .null = .null := by cases e <;> rfl
    rw [happly, Raw.shaped?] <;> simp [Raw.json?]
  | @record e fields depth members fs named part names known parts ih =>
    obtain ⟨hsorted, hfields⟩ := hj
    -- what each field that is kept is read as
    let value (name : String) : Json :=
      (e.within name).bare.apply ((Keyed.find? name fs).getD .null)
    have hvalue : ∀ f ∈ fs, value f.1 = (e.within f.1).bare.apply f.2 := by
      intro f hf
      simp only [value, Keyed.find?_of_mem hsorted hf, Option.getD_some]
    have hread : ∀ m ∈ named, ∀ shape, Shape.field? fields m.1 = some shape →
        m.2.shaped? shape depth = some (value m.1) := by
      intro m hm shape hshape
      have hmem : m ∈ named.filter fun m => (Shape.field? fields m.1).isSome :=
        List.mem_filter.2 ⟨hm, by rw [hshape]; rfl⟩
      obtain ⟨f, hf, rfl⟩ := List.mem_map.1 (known.mem_iff.1 hmem)
      obtain ⟨hf, homits⟩ := List.mem_filter.1 hf
      rw [hvalue f hf]
      exact ih f hf (by simpa using homits) shape hshape (wellFormedFields_iff.1 hfields f hf)
    have hkept : ((named.filter fun m => (Shape.field? fields m.1).isSome).map
        fun m => (m.1, value m.1)).Perm (e.kept fs) := by
      have hmap := known.map fun m => (m.1, value m.1)
      rw [List.map_map] at hmap
      have hsame : ((fs.filter fun f => !e.omits f.1).map fun f => (f.1, value f.1)) = e.kept fs :=
        List.map_congr_left fun f hf => by rw [hvalue f (List.mem_filter.1 hf).1]
      exact hsame ▸ hmap
    have hnodup := (hkept.map Prod.fst).nodup_iff.2
      (Keyed.nodup_keys_of_sorted (e.sorted_kept hsorted))
    rw [Raw.shaped?, knownMembers?_of_named names hread, apply_bare_obj e hsorted,
      ← Keyed.ofEntries_eq_of_perm hkept (e.sorted_kept hsorted)]
    exact if_pos hnodup

/-! ## The text of an edited value -/

theorem Edit.sorted_fields (e : Edit) {fs : List (String × Json)} (h : Keyed.Sorted fs) :
    Keyed.Sorted (e.fields fs) := by
  cases e with
  | keep => exact h
  | change omitted added within => exact Keyed.sorted_ofEntries _

/-- The fields of an edited record under known names are those that the edit keeps. -/
theorem Edit.filter_fields {e : Edit} {fields : List (String × Presence × Shape)}
    {fs : List (String × Json)} (he : e.Permitted (.record fields)) (hsorted : Keyed.Sorted fs)
    (known : ∀ f ∈ fs, (Shape.field? fields f.1).isSome) :
    ((e.fields fs).filter fun f => (Shape.field? fields f.1).isSome) =
      (fs.filter fun f => !e.omits f.1).map fun f => (f.1, (e.within f.1).apply f.2) := by
  refine Keyed.ext_find? ((e.sorted_fields hsorted).filter _)
    (List.pairwise_map.2 (hsorted.filter _)) fun name => ?_
  rw [Keyed.find?_filter name fun name => (Shape.field? fields name).isSome,
    Keyed.find?_map name fun name => (e.within name).apply,
    Keyed.find?_filter name fun name => !e.omits name]
  split
  · next hknown =>
    obtain ⟨⟨presence, shape⟩, hfield⟩ :=
      Option.isSome_iff_exists.1 (Option.isSome_map.symm.trans hknown)
    rw [find?_fields hsorted (he.at (Keyed.mem_of_find? hfield)).added_ne]
    cases e.omits name <;> rfl
  · next hunknown =>
    have hnone : Keyed.find? name fs = none :=
      Keyed.find?_eq_none fun f hf heq => hunknown (heq ▸ known f hf)
    rw [hnone, ite_self]
    rfl

theorem Shape.Holds.shows_unedited {shape : Shape} {j : Json} (h : shape.Holds j) {e : Edit}
    (he : e.Permitted shape) (hshape : ∀ fields, shape ≠ .record fields) {depth : Nat}
    (hlasts : (e.bare.apply j).Within depth Double.Lasts) :
    e.Shows shape depth (e.apply j).raw j := by
  obtain rfl := Edit.eq_keep_of_permitted he hshape
  rw [Edit.bare, Edit.apply_keep] at hlasts
  rw [Edit.apply_keep]
  exact .keep ((h.shaped?_raw depth).trans hlasts.json?_raw)

/-- The text of an edited value shows it, if the fields that are kept last. -/
theorem Shape.Holds.shows {shape : Shape} {j : Json} (h : shape.Holds j) {e : Edit}
    (he : e.Permitted shape) {depth : Nat} (hlasts : (e.bare.apply j).Within depth Double.Lasts) :
    e.Shows shape depth (e.apply j).raw j := by
  induction h generalizing e depth with
  | leaf j => exact shows_unedited (.leaf j) he (by simp) hlasts
  | choice s => exact shows_unedited (.choice s) he (by simp) hlasts
  | texts l => exact shows_unedited (.texts l) he (by simp) hlasts
  | null shape =>
    have happly : e.apply .null = .null := by cases e <;> rfl
    rw [happly]
    exact .null e shape depth
  | @record fields fs sorted known _ ih =>
    rw [Edit.apply_bare_obj e sorted] at hlasts
    obtain ⟨depth, rfl⟩ : ∃ d, depth = d + 1 :=
      Nat.exists_eq_succ_of_ne_zero (Nat.ne_zero_of_lt hlasts.nesting_le)
    have hkept := (within_obj_iff.1 hlasts).2
    let part (name : String) : Raw :=
      ((e.within name).apply ((Keyed.find? name fs).getD .null)).raw
    have hpart : ∀ f ∈ fs, part f.1 = ((e.within f.1).apply f.2).raw := by
      intro f hf
      simp only [part, Keyed.find?_of_mem sorted hf, Option.getD_some]
    rw [Edit.apply_obj, Json.raw]
    refine .record ((e.fields fs).map fun f => (f.1, f.2.raw)) part ?_ ?_
      fun f hf homits shape' hshape => ?_
    · simp [rawFields_eq_map, Function.comp_def]
    · refine .of_eq ?_
      rw [List.filter_map]
      simp only [Function.comp_def]
      rw [Edit.filter_fields he sorted known, List.map_map]
      exact List.map_congr_left fun f hf => by rw [hpart f (List.mem_filter.1 hf).1]; rfl
    · obtain ⟨⟨presence, _⟩, hfield, rfl⟩ := Option.map_eq_some_iff.1 hshape
      rw [hpart f hf]
      refine ih f hf _ hshape (he.at (Keyed.mem_of_find? hfield)).within (hkept (f.1, _) ?_)
      exact List.mem_map_of_mem (List.mem_filter.2 ⟨hf, by rw [homits]; rfl⟩)

end Handover
