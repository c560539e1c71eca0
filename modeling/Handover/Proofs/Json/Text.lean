import Handover.Proofs.Json.Quoted
import Handover.Proofs.Json.Value

/-!
# JSON text read back

What the reader makes of the text that the writer writes for a value. Taken apart, it is `Json.raw`
of the value (`ofText?_compact`). A well-formed value is read back as itself exactly if it is
shallow enough and its numbers of double precision last (`read?_compact_iff`).
-/

namespace Handover

namespace Json

/-! ## The characters of a value -/

mutual

/-- The characters of a value on one line, without blanks. -/
def chars : Json → List Char
  | null => ['n', 'u', 'l', 'l']
  | bool true => ['t', 'r', 'u', 'e']
  | bool false => ['f', 'a', 'l', 's', 'e']
  | int n => (toString n).toList
  | real x => (writeDouble x).toList
  | str s => '"' :: quotedChars s
  | arr items => '[' :: (itemsChars items ++ [']'])
  | obj fields => '\x7b' :: (fieldsChars fields ++ ['\x7d'])

/-- The characters of items separated by commas. -/
def itemsChars : List Json → List Char
  | [] => []
  | [j] => j.chars
  | j :: rest => j.chars ++ ',' :: itemsChars rest

/-- The characters of fields separated by commas. -/
def fieldsChars : List (String × Json) → List Char
  | [] => []
  | [(k, j)] => '"' :: (quotedChars k ++ ':' :: j.chars)
  | (k, j) :: rest => '"' :: (quotedChars k ++ ':' :: (j.chars ++ ',' :: fieldsChars rest))

end

mutual

theorem toList_append (out : String) (j : Json) :
    (append out j).toList = out.toList ++ j.chars := by
  match j with
  | null => simp [append, chars]
  | bool b => cases b <;> simp [append, chars]
  | int n => simp [append, chars]
  | real x => simp [append, chars]
  | str s => simp [append, chars, toList_appendString]
  | arr items => simp [append, chars, toList_appendItems]
  | obj fields => simp [append, chars, toList_appendFields]

theorem toList_appendItems (out : String) (items : List Json) :
    (appendItems out items).toList = out.toList ++ itemsChars items := by
  match items with
  | [] => simp [appendItems, itemsChars]
  | [j] => simp [appendItems, itemsChars, toList_append]
  | j :: k :: rest => simp [appendItems, itemsChars, toList_append, toList_appendItems]

theorem toList_appendFields (out : String) (fields : List (String × Json)) :
    (appendFields out fields).toList = out.toList ++ fieldsChars fields := by
  match fields with
  | [] => simp [appendFields, fieldsChars]
  | [(k, j)] => simp [appendFields, fieldsChars, toList_append, toList_appendString]
  | (k, j) :: l :: rest =>
    simp [appendFields, fieldsChars, toList_append, toList_appendString, toList_appendFields]

end

theorem toList_compact (j : Json) : (compact j).toList = j.chars := by
  rw [compact, toList_append]
  rfl

/-! ## The text of a value, taken apart -/

mutual

/-- The text of a value, taken apart. -/
def raw : Json → Raw
  | null => .null
  | bool b => .bool b
  | int n => .number (.ofInt n)
  | real x => .number x.numeral
  | str s => .quoted (pieces s)
  | arr items => .arr (rawItems items)
  | obj fields => .obj (rawFields fields)

/-- The texts of items, taken apart. -/
def rawItems : List Json → List Raw
  | [] => []
  | j :: rest => j.raw :: rawItems rest

/-- The texts of fields, taken apart. -/
def rawFields : List (String × Json) → List (List Piece × Raw)
  | [] => []
  | (k, j) :: rest => (pieces k, j.raw) :: rawFields rest

end

/-! ## Taking the characters of a value apart -/

/-- The blanks, and the bracket that closes an array. -/
def blanksAndBracket : List Char :=
  [' ', '\n', '\t', '\r', ']']

theorem skipBlanks_cons {c : Char} (h : c ∉ blanksAndBracket) (cs : List Char) :
    skipBlanks (c :: cs) = c :: cs := by
  simp only [blanksAndBracket, List.mem_cons, not_or] at h
  rw [skipBlanks, if_neg (by simp [h])]

theorem notMem_blanksAndBracket {c : Char} (h : c = '-' ∨ c.isDigit = true) :
    c ∉ blanksAndBracket := by
  rintro hc
  simp only [blanksAndBracket, List.mem_cons, List.not_mem_nil, or_false] at hc
  obtain rfl | rfl | rfl | rfl | rfl := hc <;> exact absurd h (by decide)

/-- The characters of a value start neither with a blank nor with a closing bracket. -/
theorem exists_cons_chars (j : Json) :
    ∃ c cs, j.chars = c :: cs ∧ c ∉ blanksAndBracket := by
  match j with
  | null => exact ⟨_, _, rfl, by decide⟩
  | bool true => exact ⟨_, _, rfl, by decide⟩
  | bool false => exact ⟨_, _, rfl, by decide⟩
  | int n =>
    obtain ⟨c, cs, h, hc⟩ := startsNumber_toString n
    exact ⟨c, cs, h, notMem_blanksAndBracket hc⟩
  | real x =>
    obtain ⟨c, cs, h, hc⟩ := startsNumber_writeDouble x
    exact ⟨c, cs, h, notMem_blanksAndBracket hc⟩
  | str s => exact ⟨_, _, rfl, by decide⟩
  | arr items => exact ⟨_, _, rfl, by decide⟩
  | obj fields => exact ⟨_, _, rfl, by decide⟩

theorem raw?_of_startsNumber {cs : List Char} (h : StartsNumber cs) (fuel : Nat) :
    raw? (fuel + 1) cs = (numeral? cs).map fun n => (.number n.1, n.2) := by
  obtain ⟨c, cs, rfl, hc⟩ := h
  rw [raw?, skipBlanks_cons (notMem_blanksAndBracket hc)]
  split
  all_goals first
    | rfl
    | next heq =>
      obtain ⟨rfl, -⟩ := List.cons.inj heq
      exact absurd hc (by decide)

theorem endsNumber_nil : EndsNumber [] := by
  simp [EndsNumber]

theorem endsNumber_cons {c : Char} (h : c = ',' ∨ c = ']' ∨ c = '\x7d') (rest : List Char) :
    EndsNumber (c :: rest) := by
  intro d hd
  obtain rfl : c = d := by simpa using hd
  obtain rfl | rfl | rfl := h <;> decide

theorem exists_cons_itemsChars {items : List Json} (hne : items ≠ []) :
    ∃ c cs, itemsChars items = c :: cs ∧ c ∉ blanksAndBracket := by
  match items with
  | [] => exact absurd rfl hne
  | [j] => exact exists_cons_chars j
  | j :: k :: rest =>
    obtain ⟨c, cs, h, hc⟩ := exists_cons_chars j
    exact ⟨c, _, by rw [itemsChars, h, List.cons_append]; simp, hc⟩

/-- An array with items is taken apart item by item. -/
theorem raw?_bracket (fuel : Nat) {c : Char} (hc : c ∉ blanksAndBracket) (cs : List Char) :
    raw? (fuel + 1) ('[' :: c :: cs) =
      (rawItems? fuel (c :: cs)).map fun (items, rest) => (.arr items, rest) := by
  have hbracket : c ≠ ']' := by
    rintro rfl
    exact hc (by decide)
  rw [raw?, skipBlanks_cons (by decide)]
  simp [skipBlanks_cons hc, hbracket]

/-- An object with members is taken apart member by member. -/
theorem raw?_brace (fuel : Nat) (cs : List Char) :
    raw? (fuel + 1) ('\x7b' :: '"' :: cs) =
      (rawMembers? fuel ('"' :: cs)).map fun (members, rest) => (.obj members, rest) :=
  rfl

theorem exists_cons_fieldsChars {fields : List (String × Json)} (hne : fields ≠ []) :
    ∃ cs, fieldsChars fields = '"' :: cs := by
  match fields with
  | [] => exact absurd rfl hne
  | [(k, j)] => exact ⟨_, rfl⟩
  | (k, j) :: l :: rest => exact ⟨_, rfl⟩

/-- A member is taken apart after its name. -/
theorem rawMembers?_key (fuel : Nat) (k : String) (cs : List Char) :
    rawMembers? (fuel + 1) ('"' :: (quotedChars k ++ ':' :: cs)) =
      (raw? fuel cs).bind fun (value, rest) =>
        match skipBlanks rest with
        | ',' :: rest => do
          let (members, rest) ← rawMembers? fuel rest
          return ((pieces k, value) :: members, rest)
        | '\x7d' :: rest => some ([(pieces k, value)], rest)
        | _ => none := by
  rw [rawMembers?, skipBlanks_cons (by decide)]
  simp only [pieces?_quotedChars]
  rfl

-- The induction is on what was written. The readers call each other with one less of fuel: the
-- brackets of an array or an object pay for the call on its parts, a comma for that on the rest.
mutual

/-- The characters of a value, with enough fuel and in front of what ends a number, are taken apart
to their end. -/
theorem raw?_chars (j : Json) {fuel : Nat} {rest : List Char} (hfuel : j.chars.length < fuel)
    (hrest : EndsNumber rest) : raw? fuel (j.chars ++ rest) = some (j.raw, rest) := by
  obtain ⟨fuel, rfl⟩ := Nat.exists_eq_succ_of_ne_zero (Nat.ne_zero_of_lt hfuel)
  match j with
  | null => rfl
  | bool true => rfl
  | bool false => rfl
  | int n =>
    rw [chars, raw?_of_startsNumber (startsNumber_append (startsNumber_toString n) rest),
      numeral?_append hrest, numeral?_toString]
    rfl
  | real x =>
    rw [chars, raw?_of_startsNumber (startsNumber_append (startsNumber_writeDouble x) rest),
      numeral?_writeDouble x hrest]
    rfl
  | str s =>
    exact congrArg (Option.map fun p : List Piece × List Char => (Raw.quoted p.1, p.2))
      (pieces?_quotedChars s rest)
  | arr items =>
    by_cases hne : items = []
    · subst hne
      rfl
    · obtain ⟨c, cs, hcs, hc⟩ := exists_cons_itemsChars hne
      have hitems := rawItems?_chars items hne rest (by simpa [chars] using hfuel)
      rw [hcs, List.cons_append] at hitems
      simp only [chars, hcs, List.cons_append, List.append_assoc, List.nil_append]
      rw [raw?_bracket fuel hc, hitems, raw]
      rfl
  | obj fields =>
    by_cases hne : fields = []
    · subst hne
      rfl
    · obtain ⟨cs, hcs⟩ := exists_cons_fieldsChars hne
      have hfields := rawMembers?_chars fields hne rest (by simpa [chars] using hfuel)
      rw [hcs, List.cons_append] at hfields
      simp only [chars, hcs, List.cons_append, List.append_assoc, List.nil_append]
      rw [raw?_brace, hfields, raw]
      rfl

theorem rawItems?_chars (items : List Json) (hne : items ≠ []) {fuel : Nat} (rest : List Char)
    (hfuel : (itemsChars items).length + 1 < fuel) :
    rawItems? fuel (itemsChars items ++ ']' :: rest) = some (rawItems items, rest) := by
  obtain ⟨fuel, rfl⟩ := Nat.exists_eq_succ_of_ne_zero (Nat.ne_zero_of_lt hfuel)
  match items with
  | [] => exact absurd rfl hne
  | [j] =>
    have hj := raw?_chars j (Nat.lt_of_succ_lt_succ hfuel)
      (endsNumber_cons (.inr (.inl rfl)) rest)
    rw [rawItems?, itemsChars, hj]
    rfl
  | j :: k :: items =>
    simp only [itemsChars, List.length_append, List.length_cons] at hfuel
    have hj := raw?_chars j (show j.chars.length < fuel by omega)
      (endsNumber_cons (.inl rfl) (itemsChars (k :: items) ++ ']' :: rest))
    have hitems := rawItems?_chars (k :: items) (by simp) rest
      (show (itemsChars (k :: items)).length + 1 < fuel by omega)
    rw [itemsChars, List.append_assoc, List.cons_append, rawItems?, hj, rawItems]
    · simp only [Option.bind_eq_bind, Option.bind_some,
        skipBlanks_cons (show ',' ∉ blanksAndBracket by decide), hitems]
      rfl
    · simp

theorem rawMembers?_chars (fields : List (String × Json)) (hne : fields ≠ []) {fuel : Nat}
    (rest : List Char) (hfuel : (fieldsChars fields).length + 1 < fuel) :
    rawMembers? fuel (fieldsChars fields ++ '\x7d' :: rest) = some (rawFields fields, rest) := by
  obtain ⟨fuel, rfl⟩ := Nat.exists_eq_succ_of_ne_zero (Nat.ne_zero_of_lt hfuel)
  match fields with
  | [] => exact absurd rfl hne
  | [(k, j)] =>
    simp only [fieldsChars, List.length_append, List.length_cons] at hfuel
    have hj := raw?_chars j (show j.chars.length < fuel by omega)
      (endsNumber_cons (.inr (.inr rfl)) rest)
    rw [fieldsChars, List.cons_append, List.append_assoc, List.cons_append, rawMembers?_key, hj]
    rfl
  | (k, j) :: l :: fields =>
    simp only [fieldsChars, List.length_append, List.length_cons] at hfuel
    have hj := raw?_chars j (show j.chars.length < fuel by omega)
      (endsNumber_cons (.inl rfl) (fieldsChars (l :: fields) ++ '\x7d' :: rest))
    have hfields := rawMembers?_chars (l :: fields) (by simp) rest
      (show (fieldsChars (l :: fields)).length + 1 < fuel by omega)
    rw [fieldsChars, List.cons_append, List.append_assoc, List.cons_append, List.append_assoc,
      List.cons_append, rawMembers?_key, hj, rawFields]
    · simp only [Option.bind_some, skipBlanks_cons (show ',' ∉ blanksAndBracket by decide), hfields]
      rfl
    · simp

end

/-- The text of a value is taken apart, whatever the value. -/
theorem ofText?_compact (j : Json) : Raw.ofText? (compact j) = some j.raw := by
  have hread := raw?_chars j (Nat.lt_succ_self _) endsNumber_nil
  rw [List.append_nil, Nat.succ_eq_add_one] at hread
  rw [Raw.ofText?, toList_compact, hread]
  rfl

/-! ## Values that last -/

theorem membersJson?_cons {k : String} {j : Json} {fields fs : List (String × Json)} {depth : Nat} :
    membersJson? (rawFields ((k, j) :: fields)) depth = some fs ↔
      ∃ j' fs', j.raw.json? depth = some j' ∧ membersJson? (rawFields fields) depth = some fs' ∧
        fs = (k, j') :: fs' := by
  simp only [rawFields, membersJson?, text?_pieces, Option.bind_eq_bind, Option.bind_some,
    Option.bind_eq_some_iff]
  constructor
  · rintro ⟨j', hj, fs', hfs, heq⟩
    exact ⟨j', fs', hj, hfs, (Option.some.inj heq).symm⟩
  · rintro ⟨j', fs', hj, hfs, rfl⟩
    exact ⟨j', hj, fs', hfs, rfl⟩

/-- The fields of an object are read under their names. -/
theorem keys_membersJson? {depth : Nat} {fields fs : List (String × Json)}
    (h : membersJson? (rawFields fields) depth = some fs) :
    fs.map Prod.fst = fields.map Prod.fst := by
  induction fields generalizing fs with
  | nil =>
    obtain rfl := Option.some.inj h
    rfl
  | cons f fields ih =>
    obtain ⟨j, fs', -, hfs, rfl⟩ := membersJson?_cons.1 h
    simp [ih hfs]

theorem sorted_of_keys {fields fs : List (String × Json)}
    (h : fs.map Prod.fst = fields.map Prod.fst) (hsorted : Keyed.Sorted fields) :
    Keyed.Sorted fs := by
  have keys : (fields.map Prod.fst).Pairwise (· < ·) := List.pairwise_map.2 hsorted
  exact List.pairwise_map.1 (h ▸ keys)

theorem find?_of_membersJson? {depth : Nat} {fields fs : List (String × Json)}
    (h : membersJson? (rawFields fields) depth = some fs) {name : String} {j : Json}
    (hj : Keyed.find? name fields = some j) :
    ∃ k, j.raw.json? depth = some k ∧ Keyed.find? name fs = some k := by
  induction fields generalizing fs with
  | nil => exact absurd hj (by simp)
  | cons f fields ih =>
    obtain ⟨k, fs', hk, hfs, rfl⟩ := membersJson?_cons.1 h
    rw [Keyed.find?_cons] at hj ⊢
    split at hj
    · next hname =>
      obtain rfl := Option.some.inj hj
      exact ⟨k, hk, if_pos hname⟩
    · next hname =>
      rw [if_neg hname]
      exact ih hfs hj

/-- What an object reads as holds under each name what the field under that name reads as. -/
theorem exists_of_json?_obj {depth : Nat} {fields : List (String × Json)} {j : Json}
    (hsorted : Keyed.Sorted fields) (h : (obj fields).raw.json? (depth + 1) = some j) :
    ∃ fs, j = obj fs ∧ ∀ name k, Keyed.find? name fields = some k →
      ∃ k', k.raw.json? depth = some k' ∧ Keyed.find? name fs = some k' := by
  obtain ⟨fs, hfs, rfl⟩ := Option.map_eq_some_iff.1 h
  refine ⟨fs, ?_, fun _ _ => find?_of_membersJson? hfs⟩
  rw [Keyed.ofEntries_of_sorted (sorted_of_keys (keys_membersJson? hfs) hsorted)]

mutual

/-- A well-formed value reads as itself exactly if it is shallow enough and its numbers of double
precision last. -/
theorem json?_raw_iff (j : Json) (h : j.WellFormed) (depth : Nat) :
    j.raw.json? depth = some j ↔ j.nesting ≤ depth ∧ ∀ x ∈ j.doubles, x.Lasts := by
  match j with
  | null => simp [raw, Raw.json?, nesting, doubles]
  | bool b => simp [raw, Raw.json?, nesting, doubles]
  | int n => simp [raw, Raw.json?, json?_ofInt h, nesting, doubles]
  | real x => simp [raw, Raw.json?, nesting, doubles, Double.Lasts, Double.reread?]
  | str s => simp [raw, Raw.json?, nesting, doubles]
  | arr items =>
    cases depth with
    | zero => simp [raw, Raw.json?, nesting]
    | succ depth =>
      have hitems := itemsJson?_raw_iff items h depth
      simpa [raw, Raw.json?, nesting, doubles] using hitems
  | obj fields =>
    cases depth with
    | zero => simp [raw, Raw.json?, nesting]
    | succ depth =>
      have hfields := membersJson?_raw_iff fields h.2 depth
      simp only [raw, Raw.json?, nesting, doubles, Nat.add_le_add_iff_right, ← hfields,
        Option.map_eq_some_iff, obj.injEq]
      constructor
      · rintro ⟨fs, hfs, hsame⟩
        rw [hfs, ← hsame, Keyed.ofEntries_of_sorted (sorted_of_keys (keys_membersJson? hfs) h.1)]
      · intro hfs
        exact ⟨fields, hfs, Keyed.ofEntries_of_sorted h.1⟩

theorem itemsJson?_raw_iff (items : List Json) (h : WellFormedItems items) (depth : Nat) :
    itemsJson? (rawItems items) depth = some items ↔
      itemsNesting items ≤ depth ∧ ∀ x ∈ itemsDoubles items, x.Lasts := by
  match items with
  | [] => simp [rawItems, itemsJson?, itemsNesting, itemsDoubles]
  | j :: rest =>
    have hj := json?_raw_iff j h.1 depth
    have hrest := itemsJson?_raw_iff rest h.2 depth
    have both : itemsJson? (rawItems (j :: rest)) depth = some (j :: rest) ↔
        j.raw.json? depth = some j ∧ itemsJson? (rawItems rest) depth = some rest := by
      simp [rawItems, itemsJson?, Option.bind_eq_some_iff]
    rw [both, hj, hrest, itemsNesting, itemsDoubles, Nat.max_le, List.forall_mem_append]
    exact and_and_and_comm

theorem membersJson?_raw_iff (fields : List (String × Json)) (h : WellFormedFields fields)
    (depth : Nat) :
    membersJson? (rawFields fields) depth = some fields ↔
      fieldsNesting fields ≤ depth ∧ ∀ x ∈ fieldsDoubles fields, x.Lasts := by
  match fields with
  | [] => simp [rawFields, membersJson?, fieldsNesting, fieldsDoubles]
  | (k, j) :: rest =>
    have hj := json?_raw_iff j h.1 depth
    have hrest := membersJson?_raw_iff rest h.2 depth
    have both : membersJson? (rawFields ((k, j) :: rest)) depth = some ((k, j) :: rest) ↔
        j.raw.json? depth = some j ∧ membersJson? (rawFields rest) depth = some rest := by
      simp [rawFields, membersJson?, Option.bind_eq_some_iff]
    rw [both, hj, hrest, fieldsNesting, fieldsDoubles, Nat.max_le, List.forall_mem_append]
    exact and_and_and_comm

end

/-- A value whose text is read as that value: shallow enough, with numbers that last. -/
structure Lasts (j : Json) : Prop where
  shallow : j.nesting ≤ depthLimit
  steady : ∀ x ∈ j.doubles, x.Lasts

theorem within_of_json?_raw {j : Json} (h : j.WellFormed) {depth : Nat}
    (hread : j.raw.json? depth = some j) : j.Within depth Double.Lasts :=
  have hlasts := (json?_raw_iff j h depth).1 hread
  ⟨h, hlasts.1, hlasts.2⟩

theorem Within.json?_raw {j : Json} {depth : Nat} (h : j.Within depth Double.Lasts) :
    j.raw.json? depth = some j :=
  (json?_raw_iff j h.wellFormed depth).2 ⟨h.nesting_le, h.doubles⟩

theorem Within.lasts {j : Json} (h : j.Within depthLimit Double.Lasts) : j.Lasts :=
  ⟨h.nesting_le, h.doubles⟩

/-- The text of a well-formed value reads as that value exactly if it lasts. -/
theorem read?_compact_iff {j : Json} (h : j.WellFormed) : read? (compact j) = some j ↔ j.Lasts := by
  rw [read?, ofText?_compact, Option.bind_some, json?_raw_iff j h]
  exact ⟨fun ⟨hshallow, hsteady⟩ => ⟨hshallow, hsteady⟩, fun h => ⟨h.shallow, h.steady⟩⟩

end Json

end Handover
