import Handover.Double
import Handover.IntRange
import Handover.Json.Value
import Handover.Keyed

/-!
# Reading JSON text

A text is read in two steps. `Raw.ofText?` takes it apart: a `Raw` value still holds the digits of
every number, the escapes of every text in quotes and every member of an object. `Raw.json?` makes
a JSON value of it, whose objects are sorted by key, the last one of equal keys counting. A number
with a fraction or an exponent, a whole number outside the 64-bit range, and a zero after a minus
sign have double precision; a number too large for that is no number. Arrays and objects that stand
too deep within each other are refused, and so is half a pair of 16-bit units. None of this matters
to a part of a text that is taken apart only.
-/

namespace Handover

namespace Json

/-! ## Numbers -/

/-- A number as it is written: the digits before the point, those after it if there is one, and the
exponent if there is one. -/
structure Numeral where
  negative : Bool
  whole : List Char
  fraction : Option (List Char)
  exponent : Option Int

/-- The number that decimal digits write. -/
def digitsValue (digits : List Char) : Nat :=
  digits.foldl (fun n c => n * 10 + (c.toNat - '0'.toNat)) 0

/-- The whole number that a sign and digits write. -/
def signed (negative : Bool) (digits : List Char) : Int :=
  if negative then -(digitsValue digits : Int) else digitsValue digits

/-- The digits at the front, and what follows them. -/
def spanDigits (cs : List Char) : List Char × List Char :=
  cs.span Char.isDigit

/-- Whether a minus stands at the front, and what follows it. -/
def sign : List Char → Bool × List Char
  | '-' :: rest => (true, rest)
  | rest => (false, rest)

/-- Whether the sign at the front of an exponent is a minus, and what follows it. -/
def exponentSign : List Char → Bool × List Char
  | '-' :: rest => (true, rest)
  | '+' :: rest => (false, rest)
  | rest => (false, rest)

/-- The digits of a fraction, if one stands at the front, and what follows them. -/
def fraction? : List Char → Option (Option (List Char) × List Char)
  | '.' :: rest =>
    if (spanDigits rest).1.isEmpty then none
    else some (some (spanDigits rest).1, (spanDigits rest).2)
  | rest => some (none, rest)

/-- An exponent, if one stands at the front, and what follows it. -/
def exponent? : List Char → Option (Option Int × List Char)
  | c :: rest =>
    if c = 'e' ∨ c = 'E' then
      let (negative, rest) := exponentSign rest
      let (digits, rest) := spanDigits rest
      if digits.isEmpty then none else some (some (signed negative digits), rest)
    else some (none, c :: rest)
  | [] => some (none, [])

/-- A number at the front, and what follows it. -/
def numeral? (cs : List Char) : Option (Numeral × List Char) :=
  let (negative, cs) := sign cs
  let (whole, rest) := spanDigits cs
  if whole.isEmpty ∨ (whole.length > 1 ∧ whole.head? = some '0') then none
  else do
    let (fraction, rest) ← fraction? rest
    let (exponent, rest) ← exponent? rest
    return (⟨negative, whole, fraction, exponent⟩, rest)

/-- Continue a number with digits as long as it fits 64 bits; answers it and the digits left. -/
def takeDigits (n : Nat) : List Char → Nat × List Char
  | [] => (n, [])
  | c :: cs =>
    let next := n * 10 + (c.toNat - '0'.toNat)
    if IntRange.unsigned64.contains next then takeDigits next cs else (n, c :: cs)

/-- The number of double precision that digits and an exponent write. Digits that do not fit 64 bits
are not looked at. -/
def double? (negative : Bool) (whole fraction : List Char) (exponent : Int) : Option Double :=
  let (m, dropped) := takeDigits 0 whole
  let (m, rest) := takeDigits m fraction
  let places : Int := (fraction.length : Int) - rest.length
  (Double.approximate? m (exponent + dropped.length - places)).map fun x => { x with negative }

/-- The value of a number. -/
def Numeral.json? (n : Numeral) : Option Json :=
  let k := signed n.negative n.whole
  if n.fraction = none ∧ n.exponent = none ∧
      (IntRange.signed64.contains k || IntRange.unsigned64.contains k) = true ∧
      ¬ (n.negative = true ∧ k = 0) then
    some (int k)
  else (double? n.negative n.whole (n.fraction.getD []) (n.exponent.getD 0)).map real

/-! ## Texts in quotes -/

/-- A part of a text in quotes: a character, or the 16-bit unit of an escape by number. -/
inductive Piece where
  | char (c : Char)
  | unit (n : Nat)

/-- The value of a hexadecimal digit. -/
def hexDigit? (c : Char) : Option Nat :=
  if '0' ≤ c ∧ c ≤ '9' then some (c.toNat - '0'.toNat)
  else if 'a' ≤ c ∧ c ≤ 'f' then some (c.toNat - 'a'.toNat + 10)
  else if 'A' ≤ c ∧ c ≤ 'F' then some (c.toNat - 'A'.toNat + 10)
  else none

/-- The 16-bit unit that four hexadecimal digits write. -/
def unit? (a b c d : Char) : Option Nat := do
  let a ← hexDigit? a
  let b ← hexDigit? b
  let c ← hexDigit? c
  let d ← hexDigit? d
  return ((a * 16 + b) * 16 + c) * 16 + d

/-- The character for which an escape of one character stands. -/
def escaped? : Char → Option Char
  | '"' => some '"'
  | '\\' => some '\\'
  | '/' => some '/'
  | 'b' => some (Char.ofNat 8)
  | 'f' => some (Char.ofNat 12)
  | 'n' => some '\n'
  | 'r' => some '\r'
  | 't' => some '\t'
  | _ => none

/-- The parts of a text after its opening quote, and what follows the closing one. -/
def pieces? : List Char → Option (List Piece × List Char)
  | [] => none
  | '"' :: rest => some ([], rest)
  | '\\' :: 'u' :: a :: b :: c :: d :: rest => do
    let n ← unit? a b c d
    let (pieces, rest) ← pieces? rest
    return (.unit n :: pieces, rest)
  | '\\' :: c :: rest => do
    let c ← escaped? c
    let (pieces, rest) ← pieces? rest
    return (.char c :: pieces, rest)
  | c :: rest =>
    if c.toNat < 0x20 then none
    else (pieces? rest).map fun (pieces, rest) => (.char c :: pieces, rest)

/-- Whether a 16-bit unit is the first half of a pair. -/
def leads (n : Nat) : Bool :=
  0xD800 ≤ n ∧ n < 0xDC00

/-- Whether a 16-bit unit is the second half of a pair. -/
def trails (n : Nat) : Bool :=
  0xDC00 ≤ n ∧ n < 0xE000

/-- The characters of a text in quotes. Half a pair needs the other half at its side. -/
def characters? : List Piece → Option (List Char)
  | [] => some []
  | .char c :: rest => (characters? rest).map (c :: ·)
  | .unit n :: rest =>
    if leads n then
      match rest with
      | .unit low :: rest =>
        if trails low then
          (characters? rest).map
            (Char.ofNat (0x10000 + (n - 0xD800) * 0x400 + (low - 0xDC00)) :: ·)
        else none
      | _ => none
    else if trails n then none
    else (characters? rest).map (Char.ofNat n :: ·)

/-- The text in quotes. -/
def text? (pieces : List Piece) : Option String :=
  (characters? pieces).map String.ofList

/-! ## Taking a text apart -/

/-- A JSON text taken apart. -/
inductive Raw where
  | null
  | bool (value : Bool)
  | number (n : Numeral)
  | quoted (pieces : List Piece)
  | arr (items : List Raw)
  | obj (members : List (List Piece × Raw))

/-- Drop blanks. -/
def skipBlanks : List Char → List Char
  | [] => []
  | c :: cs => if c = ' ' ∨ c = '\n' ∨ c = '\t' ∨ c = '\r' then skipBlanks cs else c :: cs

mutual

/-- A value at the front, and what follows it. -/
def raw? : Nat → List Char → Option (Raw × List Char)
  | 0, _ => none
  | fuel + 1, cs =>
    match skipBlanks cs with
    | 'n' :: 'u' :: 'l' :: 'l' :: rest => some (.null, rest)
    | 't' :: 'r' :: 'u' :: 'e' :: rest => some (.bool true, rest)
    | 'f' :: 'a' :: 'l' :: 's' :: 'e' :: rest => some (.bool false, rest)
    | '"' :: rest => (pieces? rest).map fun (pieces, rest) => (.quoted pieces, rest)
    | '[' :: rest =>
      match skipBlanks rest with
      | ']' :: rest => some (.arr [], rest)
      | rest => (rawItems? fuel rest).map fun (items, rest) => (.arr items, rest)
    | '\x7b' :: rest =>
      match skipBlanks rest with
      | '\x7d' :: rest => some (.obj [], rest)
      | rest => (rawMembers? fuel rest).map fun (members, rest) => (.obj members, rest)
    | cs => (numeral? cs).map fun (n, rest) => (.number n, rest)

/-- The items of an array up to its closing bracket, and what follows it. -/
def rawItems? : Nat → List Char → Option (List Raw × List Char)
  | 0, _ => none
  | fuel + 1, cs => do
    let (item, rest) ← raw? fuel cs
    match skipBlanks rest with
    | ',' :: rest =>
      let (items, rest) ← rawItems? fuel rest
      return (item :: items, rest)
    | ']' :: rest => return ([item], rest)
    | _ => none

/-- The members of an object up to its closing brace, and what follows it. -/
def rawMembers? : Nat → List Char → Option (List (List Piece × Raw) × List Char)
  | 0, _ => none
  | fuel + 1, cs => do
    let '"' :: rest := skipBlanks cs | none
    let (key, rest) ← pieces? rest
    let ':' :: rest := skipBlanks rest | none
    let (value, rest) ← raw? fuel rest
    match skipBlanks rest with
    | ',' :: rest =>
      let (members, rest) ← rawMembers? fuel rest
      return ((key, value) :: members, rest)
    | '\x7d' :: rest => return ([(key, value)], rest)
    | _ => none

end

/-- A text taken apart, if it is a JSON text. -/
def Raw.ofText? (text : String) : Option Raw := do
  let cs := text.toList
  let (r, rest) ← raw? (cs.length + 1) cs
  if (skipBlanks rest).isEmpty then some r else none

/-! ## The value of a text -/

/-- How deep arrays and objects may stand within each other. -/
def depthLimit : Nat :=
  127

mutual

/-- The value of a text, in which arrays and objects stand at most `depth` deep. -/
def Raw.json? : Raw → (depth : Nat) → Option Json
  | .null, _ => some .null
  | .bool b, _ => some (.bool b)
  | .number n, _ => n.json?
  | .quoted pieces, _ => (text? pieces).map .str
  | .arr items, depth + 1 => (itemsJson? items depth).map .arr
  | .obj members, depth + 1 =>
    (membersJson? members depth).map fun fields => .obj (Keyed.ofEntries fields)
  | _, 0 => none

/-- The values of items. -/
def itemsJson? : List Raw → (depth : Nat) → Option (List Json)
  | [], _ => some []
  | r :: rest, depth => do return (← r.json? depth) :: (← itemsJson? rest depth)

/-- The names and values of members. -/
def membersJson? : List (List Piece × Raw) → (depth : Nat) → Option (List (String × Json))
  | [], _ => some []
  | (key, r) :: rest, depth => do
    return (← text? key, ← r.json? depth) :: (← membersJson? rest depth)

end

/-- The value a text writes, if it writes one. -/
def read? (text : String) : Option Json :=
  (Raw.ofText? text).bind (·.json? depthLimit)

end Json

end Handover
