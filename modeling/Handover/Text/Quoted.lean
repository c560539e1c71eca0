import Handover.Text.Hidden

/-!
# Quoted text

Names are shown between double quotes. A quote and a backslash are preceded by a backslash, the
common control characters have a letter, and every other hidden character is written as its number
in hexadecimal.
-/

namespace Handover

namespace Quoted

/-- A character between quotes. -/
def escape (c : Char) : String :=
  if c = '"' then "\\\""
  else if c = '\\' then "\\\\"
  else if c = '\n' then "\\n"
  else if c = '\r' then "\\r"
  else if c = '\t' then "\\t"
  else if c.toNat = 0 then "\\0"
  else if Hidden.isHidden c then
    "\\u\x7b" ++ String.ofList (Nat.toDigits 16 c.toNat) ++ "\x7d"
  else String.singleton c

/-- A text between quotes. -/
def quote (s : String) : String :=
  "\"" ++ s.foldl (fun acc c => acc ++ escape c) "" ++ "\""

end Quoted

end Handover
