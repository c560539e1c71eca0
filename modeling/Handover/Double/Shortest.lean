import Handover.Double

/-!
# Shortest decimals

`Double.shortest` is the decimal by which a double is written: of the decimals that read back to the
same double, one with the fewest digits, and of those the nearest.
-/

namespace Handover

/-- The number `significand * 10 ^ exponent`. -/
structure Decimal where
  significand : Nat
  exponent : Int
  deriving DecidableEq

namespace Decimal

/-- Move zeros at the end of the significand into the exponent, at most so many of them. -/
def strip : Nat → Decimal → Decimal
  | 0, d => d
  | n + 1, d =>
    if d.significand % 10 = 0 then strip n ⟨d.significand / 10, d.exponent + 1⟩ else d

/-- The digits of the significand. -/
def digits (d : Decimal) : List Char :=
  Nat.toDigits 10 d.significand

end Decimal

namespace Double

/-- The number of digits that `num / den` has before its point; zeros right after the point count
against it. -/
def wholeDigits (num den : Nat) : Int :=
  let k : Int := ((Nat.toDigits 10 num).length : Int) - (Nat.toDigits 10 den).length
  let (a, b) := decimalRatio den k
  if a ≤ num * b then k + 1 else k

/-- The two decimals of so many digits next to `num / den`, the nearer one first. -/
def neighbours (num den digits : Nat) : List Decimal :=
  let e := wholeDigits num den - digits
  let (a, b) := decimalRatio den e
  let low := num * b / a
  if roundDiv (num * b) a = low then [⟨low, e⟩, ⟨low + 1, e⟩] else [⟨low + 1, e⟩, ⟨low, e⟩]

/-- Whether a decimal reads back to a double without a sign. -/
def readsBack (x : Double) (d : Decimal) : Bool :=
  ofRatio? (decimalRatio d.significand d.exponent).1 (decimalRatio d.significand d.exponent).2
    = some x

/-- The shortest decimal that reads back to a double, apart from its sign. Seventeen digits are
enough for any. -/
def shortest (x : Double) : Decimal :=
  let (num, den) := x.ratio
  let found? := (List.range 17).findSome? fun n =>
    (neighbours num den (n + 1)).find? x.abs.readsBack
  if x.isZero then ⟨0, 0⟩ else (found?.getD ⟨0, 0⟩).strip 17

end Double

end Handover
