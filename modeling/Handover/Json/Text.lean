import Handover.Double.Shortest
import Handover.Json.Raw

/-!
# Writing JSON text

The writer of JSON values has a compact and an indented form. `Json.read?` reads what it writes.
-/

namespace Handover

namespace Json

/-- A hexadecimal digit. -/
def hexDigit (n : Nat) : Char :=
  if n < 10 then Char.ofNat ('0'.toNat + n) else Char.ofNat ('a'.toNat + (n - 10))

/-- A character within a text. -/
def escape (c : Char) : String :=
  if c = '"' then "\\\""
  else if c = '\\' then "\\\\"
  else if c = '\n' then "\\n"
  else if c = '\r' then "\\r"
  else if c = '\t' then "\\t"
  else if c.toNat = 8 then "\\b"
  else if c.toNat = 12 then "\\f"
  else if c.toNat < 0x20 then
    "\\u00" ++ String.ofList [hexDigit (c.toNat / 16), hexDigit (c.toNat % 16)]
  else String.singleton c

/-- Append a text in quotes. -/
def appendString (out s : String) : String :=
  s.foldl (fun acc c => acc ++ escape c) (out ++ "\"") ++ "\""

/-- So many zeros. -/
def zeros (count : Nat) : List Char :=
  List.replicate count '0'

/-- A decimal: its digits with a point among at most sixteen digits before it or after at most four
zeros behind it, and elsewhere with a power of ten. -/
def writeDecimal (d : Decimal) : List Char :=
  let point : Int := d.exponent + d.digits.length
  if 0 ≤ d.exponent ∧ point ≤ 16 then d.digits ++ zeros d.exponent.toNat ++ ['.', '0']
  else if 0 < point ∧ point ≤ 16 then
    d.digits.take point.toNat ++ '.' :: d.digits.drop point.toNat
  else if -5 < point ∧ point ≤ 0 then '0' :: '.' :: zeros (-point).toNat ++ d.digits
  else
    let fraction := if d.digits.length = 1 then [] else '.' :: d.digits.drop 1
    d.digits.take 1 ++ fraction ++ 'e' :: (toString (point - 1)).toList

/-- A number of double precision. -/
def writeDouble (x : Double) : String :=
  (if x.negative then "-" else "") ++ String.ofList (writeDecimal x.shortest)

mutual

/-- Append a value on one line, without blanks. -/
def append (out : String) : Json → String
  | null => out ++ "null"
  | bool b => out ++ if b then "true" else "false"
  | int n => out ++ toString n
  | real x => out ++ writeDouble x
  | str s => appendString out s
  | arr items => appendItems (out ++ "[") items ++ "]"
  | obj fields => appendFields (out ++ "\x7b") fields ++ "\x7d"

/-- Append items separated by commas. -/
def appendItems (out : String) : List Json → String
  | [] => out
  | [j] => append out j
  | j :: rest => appendItems (append out j ++ ",") rest

/-- Append fields separated by commas. -/
def appendFields (out : String) : List (String × Json) → String
  | [] => out
  | [(k, j)] => append (appendString out k ++ ":") j
  | (k, j) :: rest => appendFields (append (appendString out k ++ ":") j ++ ",") rest

end

/-- A value on one line, without blanks. -/
def compact (j : Json) : String :=
  append "" j

/-- A record on lines of its own, each field indented by two blanks. -/
def lines (fields : List (String × Json)) : String :=
  let line (f : String × Json) := append (appendString "  " f.1 ++ ": ") f.2
  "\x7b\n" ++ ",\n".intercalate (fields.map line) ++ "\n\x7d"

end Json

end Handover
