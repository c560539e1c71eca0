import Handover.IntRange
import Handover.Json.Text
import Handover.Toml.Node

/-!
# Values of settings files

Readers for the parts of a TOML file that stand within a line or span several lines on their own:
keys, texts, numbers, dates, arrays and inline tables. Each takes the remaining characters and
answers what it read and what remains. Values are handed on as JSON: a date becomes an object that
holds its text, and what is infinite or no number becomes null. Infinity has to be written as such:
a positive number too large for double precision is refused, a negative one is infinite.
-/

namespace Handover

namespace Toml

/-- A blank within a line. -/
def isBlank (c : Char) : Bool :=
  c = ' ' ∨ c = '\t'

/-- Drop blanks. -/
def skipBlanks : List Char → List Char :=
  List.dropWhile isBlank

/-- A character that may not be written as itself. -/
def isControl (c : Char) : Bool :=
  (c.toNat < 0x20 ∧ c ≠ '\t') ∨ c.toNat = 0x7F

/-- Drop blanks, line ends and comments; `inComment` tells where the characters start. -/
def skipSpace (inComment : Bool) : List Char → Option (List Char)
  | [] => some []
  | '\n' :: rest => skipSpace false rest
  | '\r' :: '\n' :: rest => skipSpace false rest
  | c :: rest =>
    if inComment then if isControl c then none else skipSpace true rest
    else if isBlank c then skipSpace false rest
    else if c = '#' then skipSpace true rest
    else some (c :: rest)

/-- Drop the rest of a line, which may hold nothing but a comment. -/
def endLine (inComment : Bool) : List Char → Option (List Char)
  | [] => some []
  | '\n' :: rest => some rest
  | '\r' :: '\n' :: rest => some rest
  | c :: rest =>
    if inComment then if isControl c then none else endLine true rest
    else if isBlank c then endLine false rest
    else if c = '#' then endLine true rest
    else none

/-! ## Texts -/

/-- The number that hexadecimal digits write. -/
def hexValue? (digits : List Char) : Option Nat :=
  digits.foldlM (fun n c => (Json.hexDigit? c).map (n * 16 + ·)) 0

/-- The character with the number that so many hexadecimal digits write. -/
def codePoint? (count : Nat) (cs : List Char) : Option (Char × List Char) := do
  if cs.length < count then none
  let n ← hexValue? (cs.take count)
  if n < 0xD800 ∨ (0xDFFF < n ∧ n < 0x110000) then return (Char.ofNat n, cs.drop count)
  else none

/-- The character of an escape, after its backslash. -/
def escaped? : List Char → Option (Char × List Char)
  | '"' :: rest => some ('"', rest)
  | '\\' :: rest => some ('\\', rest)
  | 'b' :: rest => some (Char.ofNat 8, rest)
  | 'f' :: rest => some (Char.ofNat 12, rest)
  | 'n' :: rest => some ('\n', rest)
  | 'r' :: rest => some ('\r', rest)
  | 't' :: rest => some ('\t', rest)
  | 'u' :: rest => codePoint? 4 rest
  | 'U' :: rest => codePoint? 8 rest
  | _ => none

/-- The rest of a text on one line, after its opening quote; `acc` holds what was read, backwards.
A literal text has no escapes. -/
def lineText? (quote : Char) (literal : Bool) (acc : List Char) :
    Nat → List Char → Option (String × List Char)
  | 0, _ => none
  | _, [] => none
  | fuel + 1, c :: rest =>
    if c = quote then some (String.ofList acc.reverse, rest)
    else if isControl c then none
    else if c = '\\' ∧ ¬ literal then do
      let (c, rest) ← escaped? rest
      lineText? quote literal (c :: acc) fuel rest
    else lineText? quote literal (c :: acc) fuel rest

/-- Whether a backslash at the end of a line stands before these characters. -/
def endsLine (cs : List Char) : Bool :=
  match skipBlanks cs with
  | '\n' :: _ => true
  | '\r' :: '\n' :: _ => true
  | _ => false

/-- Drop blanks and line ends. -/
def skipLines : List Char → List Char
  | '\r' :: '\n' :: rest => skipLines rest
  | c :: rest => if isBlank c ∨ c = '\n' then skipLines rest else c :: rest
  | [] => []

/-- The rest of a text of several lines, after its opening quotes. Up to two quotes may stand
before the closing ones. -/
def blockText? (quote : Char) (literal : Bool) (acc : List Char) :
    Nat → List Char → Option (String × List Char)
  | 0, _ => none
  | _, [] => none
  | fuel + 1, c :: rest =>
    if c = quote then
      let run := 1 + (rest.takeWhile (· = quote)).length
      let rest := rest.dropWhile (· = quote)
      if run < 3 then blockText? quote literal (List.replicate run quote ++ acc) fuel rest
      else if run ≤ 5 then
        some (String.ofList (List.replicate (run - 3) quote ++ acc).reverse, rest)
      else none
    else if c = '\\' ∧ ¬ literal then
      if endsLine rest then blockText? quote literal acc fuel (skipLines rest)
      else do
        let (c, rest) ← escaped? rest
        blockText? quote literal (c :: acc) fuel rest
    else if c = '\n' then blockText? quote literal (c :: acc) fuel rest
    else if c = '\r' ∧ rest.head? = some '\n' then blockText? quote literal acc fuel rest
    else if isControl c then none
    else blockText? quote literal (c :: acc) fuel rest

/-- Drop a line end right after opening quotes. -/
def dropFirstLineEnd : List Char → List Char
  | '\n' :: rest => rest
  | '\r' :: '\n' :: rest => rest
  | cs => cs

/-- A text, after the quote that opens it. -/
def text? (quote : Char) (cs : List Char) : Option (String × List Char) :=
  let literal := quote = '\''
  let fuel := cs.length + 1
  match cs with
  | a :: b :: rest =>
    if a = quote ∧ b = quote then blockText? quote literal [] fuel (dropFirstLineEnd rest)
    else lineText? quote literal [] fuel cs
  | _ => lineText? quote literal [] fuel cs

/-! ## Keys -/

/-- A character of a key without quotes. -/
def isKeyChar (c : Char) : Bool :=
  c.isAlphanum ∨ c = '_' ∨ c = '-'

/-- One part of a key. -/
def keyPart? : List Char → Option (String × List Char)
  | '"' :: rest => lineText? '"' false [] (rest.length + 1) rest
  | '\'' :: rest => lineText? '\'' true [] (rest.length + 1) rest
  | cs =>
    let (name, rest) := cs.span isKeyChar
    if name.isEmpty then none else some (String.ofList name, rest)

/-- A key of at most so many parts with points between them; blanks around the parts are dropped. -/
def keyOf? : Nat → List Char → Option (List String × List Char)
  | 0, _ => none
  | count + 1, cs => do
    let (part, rest) ← keyPart? (skipBlanks cs)
    match skipBlanks rest with
    | '.' :: rest =>
      let (parts, rest) ← keyOf? count rest
      return (part :: parts, rest)
    | rest => return ([part], rest)

/-- The bound on the parts of a key, and on arrays and inline tables within each other: both stay
below it. -/
def depthLimit : Nat :=
  80

/-- A key. -/
def key? (cs : List Char) : Option (List String × List Char) :=
  keyOf? (depthLimit - 1) cs

/-! ## Numbers and dates -/

/-- Digits of some class with single underscores between them. -/
def groupedDigits? (isDigit : Char → Bool) : Nat → List Char → Option (List Char × List Char)
  | 0, _ => none
  | fuel + 1, cs =>
    match cs.span isDigit with
    | ([], _) => none
    | (digits, '_' :: rest) => do
      let (more, rest) ← groupedDigits? isDigit fuel rest
      return (digits ++ more, rest)
    | (digits, rest) => some (digits, rest)

/-- The number that digits of a base write. -/
def baseValue (base : Nat) (digits : List Char) : Nat :=
  digits.foldl (fun n c => n * base + (Json.hexDigit? c).getD 0) 0

/-- A whole number within the 64-bit range. -/
def ranged? (n : Int) (rest : List Char) : Option (Json × List Char) :=
  if IntRange.signed64.contains n then some (.int n, rest) else none

/-- A natural number in a base other than ten, after its sign for the base. -/
def inBase? (base : Nat) (cs : List Char) : Option (Json × List Char) := do
  let isDigit (c : Char) : Bool := (Json.hexDigit? c).any (· < base)
  let (digits, rest) ← groupedDigits? isDigit (cs.length + 1) cs
  ranged? (baseValue base digits) rest

/-- An exponent at the front. -/
def exponent? (cs : List Char) : Option (Int × List Char) := do
  let (negative, cs) := match cs with
    | '-' :: rest => (true, rest)
    | '+' :: rest => (false, rest)
    | rest => (false, rest)
  let (digits, rest) ← groupedDigits? Char.isDigit (cs.length + 1) cs
  let n : Int := baseValue 10 digits
  return (if negative then -n else n, rest)

/-- The fraction and the exponent of a number, if it has either. -/
def decimals? (cs : List Char) : Option (Option (List Char × Int) × List Char) := do
  let (fraction, rest) ← match cs with
    | '.' :: rest =>
      (groupedDigits? Char.isDigit (rest.length + 1) rest).map fun (digits, rest) =>
        (some digits, rest)
    | rest => some (none, rest)
  match rest with
  | 'e' :: rest | 'E' :: rest =>
    let (e, rest) ← exponent? rest
    return (some (fraction.getD [], e), rest)
  | rest => return (fraction.map (·, 0), rest)

/-- A number in base ten, after its sign. -/
def decimal? (negative : Bool) (cs : List Char) : Option (Json × List Char) := do
  let (digits, rest) ← groupedDigits? Char.isDigit (cs.length + 1) cs
  if digits.length > 1 ∧ digits.head? = some '0' then none
  let (fractional, rest) ← decimals? rest
  let sign : Int := if negative then -1 else 1
  match fractional with
  | none => ranged? (sign * baseValue 10 digits) rest
  | some (fraction, e) =>
    let all := digits ++ fraction
    match Double.nearest? all.length (baseValue 10 all) (e - fraction.length) with
    | some x => return (.real { x with negative }, rest)
    | none => if negative then return (.null, rest) else none

/-- A number, after its sign. -/
def unsigned? (negative : Bool) : List Char → Option (Json × List Char)
  | 'i' :: 'n' :: 'f' :: rest => some (.null, rest)
  | 'n' :: 'a' :: 'n' :: rest => some (.null, rest)
  | cs => decimal? negative cs

/-- A number. -/
def number? : List Char → Option (Json × List Char)
  | '0' :: 'x' :: rest => inBase? 16 rest
  | '0' :: 'o' :: rest => inBase? 8 rest
  | '0' :: 'b' :: rest => inBase? 2 rest
  | '+' :: rest => unsigned? false rest
  | '-' :: rest => unsigned? true rest
  | rest => unsigned? false rest

/-- A number of so many digits, from `low` to `high`. -/
def fixed? (count low high : Nat) (cs : List Char) : Option (Nat × List Char) :=
  let digits := cs.take count
  let n := baseValue 10 digits
  if digits.length = count ∧ digits.all Char.isDigit ∧ low ≤ n ∧ n ≤ high then
    some (n, cs.drop count)
  else none

/-- A given character at the front. -/
def expect? (c : Char) : List Char → Option (List Char)
  | d :: rest => if c = d then some rest else none
  | [] => none

/-- The number of days of a month. -/
def daysIn (year month : Nat) : Nat :=
  if month = 2 then
    if year % 4 = 0 ∧ (year % 100 ≠ 0 ∨ year % 400 = 0) then 29 else 28
  else if month = 4 ∨ month = 6 ∨ month = 9 ∨ month = 11 then 30
  else 31

/-- A date. -/
def date? (cs : List Char) : Option (List Char) := do
  let (year, cs) ← fixed? 4 0 9999 cs
  let (month, cs) ← fixed? 2 1 12 (← expect? '-' cs)
  let (_, cs) ← fixed? 2 1 (daysIn year month) (← expect? '-' cs)
  return cs

/-- A time of day. -/
def time? (cs : List Char) : Option (List Char) := do
  let (_, cs) ← fixed? 2 0 23 cs
  let (_, cs) ← fixed? 2 0 59 (← expect? ':' cs)
  let (_, cs) ← fixed? 2 0 60 (← expect? ':' cs)
  match cs with
  | '.' :: rest =>
    let (fraction, rest) := rest.span Char.isDigit
    if fraction.isEmpty then none else return rest
  | rest => return rest

/-- The offset after a time, if there is one. -/
def offset? : List Char → Option (List Char)
  | 'Z' :: rest | 'z' :: rest => some rest
  | '+' :: rest | '-' :: rest => do
    let (_, rest) ← fixed? 2 0 23 rest
    let (_, rest) ← fixed? 2 0 59 (← expect? ':' rest)
    return rest
  | rest => some rest

/-- A date with or without a time, or a time. -/
def moment? (cs : List Char) : Option (List Char) :=
  match date? cs with
  | none => time? cs
  | some rest =>
    match rest with
    | 'T' :: time | 't' :: time => (time? time).bind offset?
    | ' ' :: time =>
      match time? time with
      | some rest => offset? rest
      | none => some rest
    | rest => some rest

/-- Whether characters start like a date or a time. -/
def isMoment (cs : List Char) : Bool :=
  let digits := (cs.takeWhile Char.isDigit).length
  (digits = 4 ∧ cs[4]? = some '-') ∨ (digits = 2 ∧ cs[2]? = some ':')

/-- A date, a time or a number. -/
def scalar? (cs : List Char) : Option (Json × List Char) :=
  if isMoment cs then
    (moment? cs).map fun rest =>
      let text := String.ofList (cs.take (cs.length - rest.length))
      (.obj [("date", .str text)], rest)
  else number? cs

/-! ## Values -/

mutual

/-- A value at the front, within so many arrays and inline tables. -/
def value? : Nat → Nat → List Char → Option (Json × List Char)
  | 0, _, _ => none
  | fuel + 1, depth, cs =>
    match cs with
    | 't' :: 'r' :: 'u' :: 'e' :: rest => some (.bool true, rest)
    | 'f' :: 'a' :: 'l' :: 's' :: 'e' :: rest => some (.bool false, rest)
    | '"' :: rest => (text? '"' rest).map fun (s, rest) => (.str s, rest)
    | '\'' :: rest => (text? '\'' rest).map fun (s, rest) => (.str s, rest)
    | '[' :: rest =>
      if depth + 1 < depthLimit then
        (items? fuel (depth + 1) rest).map fun (items, rest) => (.arr items, rest)
      else none
    | '\x7b' :: rest =>
      if depth + 1 < depthLimit then
        match skipBlanks rest with
        | '\x7d' :: rest => some (.obj [], rest)
        | rest =>
          (fields? fuel (depth + 1) [] rest).map fun (fields, rest) =>
            (.obj (fieldsToJson fields), rest)
      else none
    | cs => scalar? cs

/-- The items of an array up to its closing bracket; a comma may follow the last one. -/
def items? : Nat → Nat → List Char → Option (List Json × List Char)
  | 0, _, _ => none
  | fuel + 1, depth, cs => do
    match ← skipSpace false cs with
    | ']' :: rest => return ([], rest)
    | cs =>
      let (item, rest) ← value? fuel depth cs
      match ← skipSpace false rest with
      | ',' :: rest =>
        let (items, rest) ← items? fuel depth rest
        return (item :: items, rest)
      | ']' :: rest => return ([item], rest)
      | _ => none

/-- The fields of an inline table up to its closing brace, after those that stand before. -/
def fields? : Nat → Nat → Fields → List Char → Option (Fields × List Char)
  | 0, _, _, _ => none
  | fuel + 1, depth, fields, cs => do
    let (key, rest) ← key? cs
    let rest ← expect? '=' rest
    let (value, rest) ← value? fuel depth (skipBlanks rest)
    let fields ← set? value true key fields
    match skipBlanks rest with
    | ',' :: rest => fields? fuel depth fields rest
    | '\x7d' :: rest => return (fields, rest)
    | _ => none

end

end Toml

end Handover
