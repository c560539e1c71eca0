import Handover.Proofs.Format.Shown

/-!
# Formats

A `Format` is a way to write values of a type as JSON and to read them back: as a JSON value or as
text. It names the values that it holds, the shape of what it writes, and what an edit of the
written form makes of a value. A format is `Lawful` if its two directions fit, value by value and
field by field. Main statement: a lawful format round-trips (`Lawful.roundTrips`). In text this has
a limit, since a number of double precision need not be read as the one that was written: a value
is read back exactly if what is written for it lasts.
-/

namespace Handover

/-- A way to write and to read values of a type. -/
structure Format (α : Type) where
  write : α → Json
  read? : Json → Option α
  /-- The values that a program can hold. -/
  InRange : α → Prop
  shape : Shape
  /-- What an edit of the written form makes of a value. -/
  reset : Edit → α → α

namespace Format

variable {α : Type} {F : Format α}

/-- The text of a value. -/
def encode (F : Format α) (a : α) : String :=
  (F.write a).compact

/-- The value that a text writes. The text is read for the fields of the format: no name of these
may stand twice, and what stands under other names is not looked at. -/
def decode? (F : Format α) (text : String) : Option α :=
  (Json.Raw.ofText? text).bind fun r => (r.shaped? F.shape Json.depthLimit).bind F.read?

/-- What the two directions of a format owe each other. -/
structure Lawful (F : Format α) : Prop where
  wellFormed_write {a : α} : F.InRange a → (F.write a).WellFormed
  holds_write (a : α) : F.shape.Holds (F.write a)
  inRange_of_read? {j : Json} {a : α} : j.WellFormed → F.read? j = some a → F.InRange a
  /-- What is written for a value stands no deeper than what it was read from. -/
  shallow_write {j : Json} {a : α} : j.Within Json.depthLimit (fun _ => True) →
    F.read? j = some a → (F.write a).nesting ≤ Json.depthLimit
  /-- A value that survives its own text keeps every number in it. -/
  lasts_write {j : Json} {a : α} : F.InRange a →
    (F.write a).raw.json? Json.depthLimit = some j → F.read? j = some a → (F.write a).Lasts
  read?_edited {a : α} {e : Edit} : F.InRange a → e.Permitted F.shape →
    F.read? (e.apply (F.write a)) = some (F.reset e a)
  reset_keep (a : α) : F.reset .keep a = a
  reset_bare (e : Edit) (a : α) : F.reset e.bare a = F.reset e a

/-- A format gives back what it was given, apart from the fields left out, which take their
defaults: always as a JSON value, and as text as far as the written form lasts. -/
structure RoundTrips (F : Format α) : Prop where
  read?_edited {a : α} {e : Edit} : F.InRange a → e.Permitted F.shape →
    F.read? (e.apply (F.write a)) = some (F.reset e a)
  reset_keep (a : α) : F.reset .keep a = a
  /-- Any text that shows the value as an edit leaves it is read as what the edit makes of it. -/
  decode?_shown {a : α} {e : Edit} {text : String} {r : Json.Raw} : F.InRange a →
    e.Permitted F.shape → Json.Raw.ofText? text = some r →
    e.Shows F.shape Json.depthLimit r (F.write a) → F.decode? text = some (F.reset e a)
  /-- So is the text of the edited form, if the fields that are kept last. -/
  decode?_edited {a : α} {e : Edit} : F.InRange a → e.Permitted F.shape →
    (e.bare.apply (F.write a)).Lasts →
    F.decode? (e.apply (F.write a)).compact = some (F.reset e a)
  decode?_encode {a : α} : F.InRange a →
    (F.decode? (F.encode a) = some a ↔ (F.write a).Lasts)
  decode?_again {text : String} {a : α} : F.decode? text = some a →
    (F.decode? (F.encode a) = some a ↔ ∀ x ∈ (F.write a).doubles, x.Lasts)

/-- A format that gives back every value, in text too. -/
structure RoundTripsAlways (F : Format α) : Prop extends F.RoundTrips where
  decode?_edited_self {a : α} {e : Edit} : F.InRange a → e.Permitted F.shape →
    F.decode? (e.apply (F.write a)).compact = some (F.reset e a)
  decode?_encode_self {a : α} : F.InRange a → F.decode? (F.encode a) = some a
  decode?_again_self {text : String} {a : α} : F.decode? text = some a →
    F.decode? (F.encode a) = some a

theorem decode?_eq_some_iff {text : String} {a : α} :
    F.decode? text = some a ↔ ∃ r j, Json.Raw.ofText? text = some r ∧
      r.shaped? F.shape Json.depthLimit = some j ∧ F.read? j = some a := by
  simp only [decode?, Option.bind_eq_some_iff]
  constructor
  · rintro ⟨r, hr, j, hj, hread⟩
    exact ⟨r, j, hr, hj, hread⟩
  · rintro ⟨r, j, hr, hj, hread⟩
    exact ⟨r, hr, j, hj, hread⟩

namespace Lawful

variable (h : F.Lawful)
include h

/-- What is written for a value is read as that value. -/
theorem read?_write {a : α} (ha : F.InRange a) : F.read? (F.write a) = some a := by
  have hread := h.read?_edited ha (e := .keep) trivial
  rwa [Edit.apply_keep, h.reset_keep] at hread

/-- The text of a value is read as what the value reads as. -/
theorem decode?_encode_eq (a : α) :
    F.decode? (F.encode a) = ((F.write a).raw.json? Json.depthLimit).bind F.read? := by
  rw [decode?, encode, Json.ofText?_compact, Option.bind_some, (h.holds_write a).shaped?_raw]

/-- The text of a value is read as that value exactly if what is written for it lasts. -/
theorem decode?_encode_iff {a : α} (ha : F.InRange a) :
    F.decode? (F.encode a) = some a ↔ (F.write a).Lasts := by
  have hwell := h.wellFormed_write ha
  rw [h.decode?_encode_eq]
  constructor
  · intro hdecode
    obtain ⟨j, hj, hread⟩ := Option.bind_eq_some_iff.1 hdecode
    exact h.lasts_write ha hj hread
  · intro hlasts
    rw [(Json.json?_raw_iff _ hwell _).2 ⟨hlasts.shallow, hlasts.steady⟩]
    exact h.read?_write ha

theorem inRange_of_decode? {text : String} {a : α} (hdecode : F.decode? text = some a) :
    F.InRange a := by
  obtain ⟨r, j, -, hj, hread⟩ := decode?_eq_some_iff.1 hdecode
  exact h.inRange_of_read? (Json.within_of_shaped? r hj).wellFormed hread

theorem shallow_of_decode? {text : String} {a : α} (hdecode : F.decode? text = some a) :
    (F.write a).nesting ≤ Json.depthLimit := by
  obtain ⟨r, j, -, hj, hread⟩ := decode?_eq_some_iff.1 hdecode
  exact h.shallow_write (Json.within_of_shaped? r hj) hread

/-- The text is read as what the edit, apart from the fields it adds, makes of what is written; and
the fields it adds make no difference. -/
theorem decode?_shown {a : α} {e : Edit} {text : String} {r : Json.Raw} (ha : F.InRange a)
    (he : e.Permitted F.shape) (htext : Json.Raw.ofText? text = some r)
    (hr : e.Shows F.shape Json.depthLimit r (F.write a)) :
    F.decode? text = some (F.reset e a) := by
  refine decode?_eq_some_iff.2 ⟨r, _, htext, hr.shaped? (h.wellFormed_write ha), ?_⟩
  rw [h.read?_edited ha he.bare, h.reset_bare]

theorem decode?_edited {a : α} {e : Edit} (ha : F.InRange a) (he : e.Permitted F.shape)
    (hlasts : (e.bare.apply (F.write a)).Lasts) :
    F.decode? (e.apply (F.write a)).compact = some (F.reset e a) := by
  have hwithin : (F.write a).Within (F.write a).nesting fun _ => True :=
    ⟨h.wellFormed_write ha, Nat.le_refl _, fun _ _ => trivial⟩
  have hkept : (e.bare.apply (F.write a)).Within Json.depthLimit Double.Lasts :=
    ⟨(e.within_apply_bare hwithin).wellFormed, hlasts.shallow, hlasts.steady⟩
  exact h.decode?_shown ha he (Json.ofText?_compact _) ((h.holds_write a).shows he hkept)

theorem roundTrips : F.RoundTrips where
  read?_edited := h.read?_edited
  reset_keep := h.reset_keep
  decode?_shown := h.decode?_shown
  decode?_edited := h.decode?_edited
  decode?_encode := h.decode?_encode_iff
  decode?_again {text a} hdecode := by
    rw [h.decode?_encode_iff (h.inRange_of_decode? hdecode)]
    exact ⟨Json.Lasts.steady, fun hsteady => ⟨h.shallow_of_decode? hdecode, hsteady⟩⟩

/-- Where all that is written lasts, nothing is lost in text. -/
theorem roundTripsAlways (hlasts : ∀ {a}, F.InRange a → (F.write a).Lasts) :
    F.RoundTripsAlways where
  toRoundTrips := h.roundTrips
  decode?_edited_self {a e} ha he := by
    have hwithin : (F.write a).Within Json.depthLimit Double.Lasts :=
      ⟨h.wellFormed_write ha, (hlasts ha).shallow, (hlasts ha).steady⟩
    exact h.decode?_edited ha he (e.within_apply_bare hwithin).lasts
  decode?_encode_self ha := (h.decode?_encode_iff ha).2 (hlasts ha)
  decode?_again_self hdecode :=
    have ha := h.inRange_of_decode? hdecode
    (h.decode?_encode_iff ha).2 (hlasts ha)

end Lawful

end Format

end Handover
