/-!
# Ranges of whole numbers

Numbers of the domain are kept in 32 or 64 bits. An `IntRange` is such a set of numbers, given by
its two ends, which both belong to it. What is counted beyond the upper end starts again at the
lower end; counts of failures are natural numbers of 32 bits.
-/

namespace Handover

/-- The whole numbers from `low` to `high`. -/
structure IntRange where
  low : Int
  high : Int

namespace IntRange

/-- Signed numbers of 32 bits. -/
def signed32 : IntRange :=
  ⟨-2147483648, 2147483647⟩

/-- Signed numbers of 64 bits. -/
def signed64 : IntRange :=
  ⟨-9223372036854775808, 9223372036854775807⟩

/-- Natural numbers of 32 bits. -/
def unsigned32 : IntRange :=
  ⟨0, 4294967295⟩

/-- Natural numbers of 64 bits. -/
def unsigned64 : IntRange :=
  ⟨0, 18446744073709551615⟩

/-- Whether a number belongs to a range. -/
def contains (r : IntRange) (n : Int) : Bool :=
  r.low ≤ n ∧ n ≤ r.high

theorem contains_iff {r : IntRange} {n : Int} : r.contains n = true ↔ r.low ≤ n ∧ n ≤ r.high := by
  simp [contains]

/-- The number of a range that a number is kept as: the upper end is followed by the lower end. -/
def wrap (r : IntRange) (n : Int) : Int :=
  r.low + (n - r.low) % (r.high - r.low + 1)

theorem wrap_of_contains {r : IntRange} {n : Int} (h : r.contains n = true) : r.wrap n = n := by
  rw [contains_iff] at h
  unfold wrap
  rw [Int.emod_eq_of_lt (by omega) (by omega)]
  omega

end IntRange

/-- The greatest count. -/
def maxCount : Nat :=
  4294967295

/-- The count that a number is kept as: the greatest count is followed by zero. -/
def keptCount (n : Nat) : Nat :=
  n % (maxCount + 1)

theorem keptCount_of_le {n : Nat} (h : n ≤ maxCount) : keptCount n = n :=
  Nat.mod_eq_of_lt (Nat.lt_succ_of_le h)

theorem keptCount_le_maxCount (n : Nat) : keptCount n ≤ maxCount :=
  Nat.le_of_lt_succ (Nat.mod_lt n (Nat.succ_pos _))

theorem keptCount_keptCount_add (n k : Nat) : keptCount (keptCount n + k) = keptCount (n + k) :=
  Nat.mod_add_mod n _ k

end Handover
