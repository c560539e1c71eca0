import Handover.Json.Text

/-!
# Quoted text within JSON text

A text written in quotes is read back as itself, whatever its characters: each character is escaped
by itself and taken apart as one `piece` (`pieces?_quotedChars`), and the pieces are read as the
characters that they were made of (`text?_pieces`).
-/

namespace Handover

namespace Json

theorem hexDigit?_hexDigit : ∀ n < 16, hexDigit? (hexDigit n) = some n := by decide

/-- A control character without an escape of its own is read back from its number. -/
theorem unit?_hexDigits {n : Nat} (h : n < 0x20) :
    unit? '0' '0' (hexDigit (n / 16)) (hexDigit (n % 16)) = some n := by
  have zero : hexDigit? '0' = some 0 := by decide
  have value : ((0 * 16 + 0) * 16 + n / 16) * 16 + n % 16 = n := by omega
  simp only [unit?, zero, hexDigit?_hexDigit _ (show n / 16 < 16 by omega),
    hexDigit?_hexDigit _ (Nat.mod_lt _ (by decide)), Option.bind_eq_bind, Option.bind_some, value]
  rfl

/-! ## Characters -/

/-- The control characters that have an escape of their own. -/
def escapedControls : List Char :=
  ['\n', '\r', '\t', Char.ofNat 8, Char.ofNat 12]

/-- A character as it is written in a text in quotes. -/
def piece (c : Char) : Piece :=
  if c.toNat < 0x20 ∧ c ∉ escapedControls then .unit c.toNat else .char c

theorem pieces?_unit (a b c d : Char) (rest : List Char) :
    pieces? ('\\' :: 'u' :: a :: b :: c :: d :: rest) =
      (unit? a b c d).bind fun n => (pieces? rest).map fun p => (.unit n :: p.1, p.2) := by
  rw [pieces?]
  cases unit? a b c d with
  | none => rfl
  | some n => cases pieces? rest <;> rfl

theorem pieces?_escaped {c d : Char} (h : escaped? c = some d) (rest : List Char) :
    pieces? ('\\' :: c :: rest) = (pieces? rest).map fun p => (.char d :: p.1, p.2) := by
  have hu : c ≠ 'u' := by
    rintro rfl
    simp [escaped?] at h
  rw [pieces?]
  · rw [h]
    cases pieces? rest <;> rfl
  · simp [hu]

theorem pieces?_char {c : Char} (hquote : c ≠ '"') (hslash : c ≠ '\\') (hcontrol : ¬ c.toNat < 0x20)
    (rest : List Char) :
    pieces? (c :: rest) = (pieces? rest).map fun p => (.char c :: p.1, p.2) := by
  rw [pieces?]
  · rw [if_neg hcontrol]
  all_goals simp [hquote, hslash]

theorem piece_of_not_control {c : Char} (h : ¬ c.toNat < 0x20) : piece c = .char c :=
  if_neg fun hc => h hc.1

/-- A control character without an escape of its own is written as a number of four digits. -/
theorem pieces?_control {c : Char} (hcontrol : c.toNat < 0x20) (hown : c ∉ escapedControls)
    (rest : List Char) :
    pieces? (("\\u00" ++ String.ofList [hexDigit (c.toNat / 16), hexDigit (c.toNat % 16)]).toList
        ++ rest) =
      (pieces? rest).map fun p => (piece c :: p.1, p.2) := by
  have text : ("\\u00" ++ String.ofList [hexDigit (c.toNat / 16), hexDigit (c.toNat % 16)]).toList
      ++ rest = '\\' :: 'u' :: '0' :: '0' :: hexDigit (c.toNat / 16) ::
        hexDigit (c.toNat % 16) :: rest := by
    simp
  rw [text, pieces?_unit, unit?_hexDigits hcontrol, piece, if_pos ⟨hcontrol, hown⟩]
  rfl

/-- The written form of a character is taken apart as one piece. -/
theorem pieces?_escape (c : Char) (rest : List Char) :
    pieces? ((escape c).toList ++ rest) =
      (pieces? rest).map fun p => (piece c :: p.1, p.2) := by
  unfold escape
  split
  · next h => subst h; exact pieces?_escaped rfl rest
  next hquote =>
  split
  · next h => subst h; exact pieces?_escaped rfl rest
  next hslash =>
  split
  · next h => subst h; exact pieces?_escaped rfl rest
  next hnewline =>
  split
  · next h => subst h; exact pieces?_escaped rfl rest
  next hreturn =>
  split
  · next h => subst h; exact pieces?_escaped rfl rest
  next htab =>
  split
  · next h =>
    obtain rfl : c = Char.ofNat 8 := by rw [← h, Char.ofNat_toNat]
    exact pieces?_escaped rfl rest
  next hback =>
  split
  · next h =>
    obtain rfl : c = Char.ofNat 12 := by rw [← h, Char.ofNat_toNat]
    exact pieces?_escaped rfl rest
  next hfeed =>
  split
  · next hcontrol =>
    have hown : c ∉ escapedControls := by
      have hback' : c ≠ Char.ofNat 8 := fun h => hback (by rw [h]; rfl)
      have hfeed' : c ≠ Char.ofNat 12 := fun h => hfeed (by rw [h]; rfl)
      simp [escapedControls, hnewline, hreturn, htab, hback', hfeed']
    exact pieces?_control hcontrol hown rest
  · next hcontrol =>
    rw [piece_of_not_control hcontrol]
    simpa using pieces?_char hquote hslash hcontrol rest

/-! ## Texts -/

/-- The characters that write a text between quotes. -/
def escapedChars (cs : List Char) : List Char :=
  cs.flatMap fun c => (escape c).toList

theorem pieces?_escapedChars (cs rest : List Char) :
    pieces? (escapedChars cs ++ '"' :: rest) = some (cs.map piece, rest) := by
  induction cs with
  | nil => simp [escapedChars, pieces?]
  | cons c cs ih =>
    have hcs : escapedChars (c :: cs) = (escape c).toList ++ escapedChars cs := rfl
    rw [hcs, List.append_assoc, pieces?_escape, ih]
    rfl

theorem characters?_unit {n : Nat} (hleads : leads n = false) (htrails : trails n = false)
    (rest : List Piece) :
    characters? (.unit n :: rest) = (characters? rest).map (Char.ofNat n :: ·) := by
  rw [characters?.eq_def]
  simp [hleads, htrails]

theorem characters?_pieces (cs : List Char) : characters? (cs.map piece) = some cs := by
  induction cs with
  | nil => rfl
  | cons c cs ih =>
    rw [List.map_cons, piece]
    split
    · next h =>
      have hleads : leads c.toNat = false := by simp [leads]; omega
      have htrails : trails c.toNat = false := by simp [trails]; omega
      rw [characters?_unit hleads htrails, ih, Char.ofNat_toNat]
      rfl
    · rw [characters?, ih]
      rfl

/-- The pieces of a text. -/
def pieces (s : String) : List Piece :=
  s.toList.map piece

@[simp]
theorem text?_pieces (s : String) : text? (pieces s) = some s := by
  rw [text?, pieces, characters?_pieces, Option.map_some, String.ofList_toList]

/-- The characters of a text in quotes after the opening one. -/
def quotedChars (s : String) : List Char :=
  escapedChars s.toList ++ ['"']

/-- A text in quotes is taken apart as its pieces. -/
theorem pieces?_quotedChars (s : String) (rest : List Char) :
    pieces? (quotedChars s ++ rest) = some (pieces s, rest) := by
  rw [quotedChars, List.append_assoc, List.singleton_append, pieces?_escapedChars, pieces]

theorem toList_foldl_escape (cs : List Char) (out : String) :
    (cs.foldl (fun out c => out ++ escape c) out).toList = out.toList ++ escapedChars cs := by
  induction cs generalizing out with
  | nil => simp [escapedChars]
  | cons c cs ih =>
    have hcs : escapedChars (c :: cs) = (escape c).toList ++ escapedChars cs := rfl
    rw [List.foldl_cons, ih, hcs, String.toList_append, List.append_assoc]

theorem toList_appendString (out s : String) :
    (appendString out s).toList = out.toList ++ '"' :: quotedChars s := by
  rw [appendString, String.foldl_eq_foldl_toList, String.toList_append, toList_foldl_escape]
  simp [quotedChars]

end Json

end Handover
