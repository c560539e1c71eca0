/-!
# Numbers of double precision

A `Double` is a finite number of double precision: a sign, a significand of at most 53 bits and a
power of two. Arithmetic is exact on natural numbers up to the one rounding at its end, which goes
to the nearest double, and to the even significand where two are equally near. A result beyond the
largest double is none.
-/

namespace Handover

/-- The number `significand * 2 ^ exponent`, or its negative. Every number has one such form: the
significand has 53 bits, or fewer together with the least exponent. Only zero has two signs. -/
structure Double where
  negative : Bool
  significand : Nat
  exponent : Int
  deriving DecidableEq

namespace Double

/-- The least exponent. -/
def leastExponent : Int :=
  -1074

/-- The greatest exponent. -/
def greatestExponent : Int :=
  971

/-- Zero without a sign. -/
def zero : Double :=
  ⟨false, 0, leastExponent⟩

/-- Whether a number is zero, of either sign. -/
def isZero (x : Double) : Bool :=
  x.significand = 0

/-- A number without its sign. -/
def abs (x : Double) : Double :=
  { x with negative := false }

/-- A number with its sign dropped if it is zero, so that equal numbers become the same. -/
def plain (x : Double) : Double :=
  if x.isZero then zero else x

/-! ## Rounding -/

/-- A quotient rounded to the nearest whole number, or to the even one of two. -/
def roundDiv (num den : Nat) : Nat :=
  if 2 * (num % den) < den ∨ (2 * (num % den) = den ∧ num / den % 2 = 0) then num / den
  else num / den + 1

/-- The fraction `num / den` divided by `2 ^ e`. -/
def scale (num den : Nat) (e : Int) : Nat × Nat :=
  if e < 0 then (num <<< (-e).toNat, den) else (num, den <<< e.toNat)

/-- The exponent for which `num / den`, in units of that power of two, has 53 bits before the point,
or the least exponent if that is greater. -/
def exponentFor (num den : Nat) : Int :=
  let e : Int := (num.log2 : Int) - den.log2 - 53
  let (a, b) := scale num den e
  max (if a < b <<< 53 then e else e + 1) leastExponent

/-- The double nearest to `num / den`. -/
def ofRatio? (num den : Nat) : Option Double :=
  if num = 0 then some zero
  else
    let e := exponentFor num den
    let (a, b) := scale num den e
    let m := roundDiv a b
    let x : Double := if m = 1 <<< 53 then ⟨false, 1 <<< 52, e + 1⟩ else ⟨false, m, e⟩
    if x.exponent ≤ greatestExponent then some x else none

/-! ## Arithmetic -/

/-- The fraction that a number is, apart from its sign. -/
def ratio (x : Double) : Nat × Nat :=
  scale x.significand 1 (-x.exponent)

/-- The rounded product of two numbers without signs. -/
def mul? (x y : Double) : Option Double :=
  ofRatio? (x.ratio.1 * y.ratio.1) (x.ratio.2 * y.ratio.2)

/-- The rounded quotient of two numbers without signs, of which the second is not zero. -/
def div? (x y : Double) : Option Double :=
  ofRatio? (x.ratio.1 * y.ratio.2) (x.ratio.2 * y.ratio.1)

/-! ## Decimals -/

/-- The fraction `m * 10 ^ e`. -/
def decimalRatio (m : Nat) (e : Int) : Nat × Nat :=
  if e < 0 then (m, Nat.pow 10 (-e).toNat) else (m * Nat.pow 10 e.toNat, 1)

/-- The double nearest to `m * 10 ^ e`, where `m` has at most so many digits. Exponents by which the
answer is zero or none are told apart first, so that no power is taken of them. -/
def nearest? (digits m : Nat) (e : Int) : Option Double :=
  if m = 0 ∨ digits + e < -330 then some zero
  else if 330 < e then none
  else ofRatio? (decimalRatio m e).1 (decimalRatio m e).2

/-- The greatest power of ten that is a double. -/
def greatestPower : Nat :=
  308

/-- The double nearest to a power of ten. -/
def powerOfTen? (k : Nat) : Option Double :=
  ofRatio? (Nat.pow 10 k) 1

/-- Divide by the greatest power of ten, so many times or until nothing is left. -/
def shrink? : Nat → Double → Option Double
  | 0, x => some x
  | n + 1, x =>
    if x.isZero then some x
    else do shrink? n (← x.div? (← powerOfTen? greatestPower))

/-- A double near `m * 10 ^ e`, found by double arithmetic: `m` and the power of ten are rounded
before their product or quotient is, so that it may miss the nearest one by a little. -/
def approximate? (m : Nat) (e : Int) : Option Double := do
  let x ← ofRatio? m 1
  if x.isZero then return x
  else if e < 0 then
    let k := (-e).toNat
    let steps := (k - 1) / greatestPower
    (← shrink? steps x).div? (← powerOfTen? (k - greatestPower * steps))
  else if e ≤ greatestPower then x.mul? (← powerOfTen? e.toNat)
  else none

end Double

end Handover
