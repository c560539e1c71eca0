import Handover.Settings
import Mathlib.Algebra.Order.Ring.Nat
import Mathlib.Order.Monotone.Defs

/-!
# Delays double up to their bound

A delay is computed with a shift of at most 63 places and a product that saturates at 64 bits. With
a bound of 64 bits neither shows: the delay is the base doubled once for each failure after the
first one, cut off at the bound (`Backoff.doubles_up_to_bound`). There is one exception. A base of
one can double 64 times before it passes 64 bits, which is once more than the shift allows, so it
stays at `2 ^ 63` below any greater bound; every other base has passed the bound by then, or is
zero.
-/

namespace Handover

namespace Backoff

variable {b : Backoff} {failures : Nat}

/-- Whether the shift rather than the bound is what keeps a delay from growing. -/
def StaysBelow (b : Backoff) (failures : Nat) : Prop :=
  b.baseDelayMs = 1 ∧ 64 < failures ∧ 2 ^ 63 < b.maxDelayMs

/-- A bound of 64 bits leaves nothing for the saturation to do. -/
theorem delayFor_eq_min (h : b.maxDelayMs ≤ ceiling) (failures : Nat) :
    b.delayFor failures = min (b.baseDelayMs * 2 ^ min (failures - 1) 63) b.maxDelayMs := by
  unfold delayFor
  rw [Nat.shiftLeft_eq, min_assoc, min_eq_right h]

/-- As long as the shift is not cut off, it doubles the base for each failure after the first. -/
theorem delayFor_of_le (h : b.maxDelayMs ≤ ceiling) (hfew : failures ≤ 64) :
    b.delayFor failures = min (b.baseDelayMs * 2 ^ (failures - 1)) b.maxDelayMs := by
  have hshift : failures - 1 ≤ 63 := by omega
  rw [delayFor_eq_min h, min_eq_left hshift]

/-- A longer shift is cut off at 63 places. -/
theorem delayFor_of_lt (h : b.maxDelayMs ≤ ceiling) (hmany : 64 < failures) :
    b.delayFor failures = min (b.baseDelayMs * 2 ^ 63) b.maxDelayMs := by
  have hshift : 63 ≤ failures - 1 := by omega
  rw [delayFor_eq_min h, min_eq_right hshift]

/-- Doubling 64 times or more passes any bound of 64 bits, unless there is nothing to double. -/
theorem maxDelayMs_le_mul (h : b.maxDelayMs ≤ ceiling) (hmany : 64 < failures)
    (hbase : 1 ≤ b.baseDelayMs) : b.maxDelayMs ≤ b.baseDelayMs * 2 ^ (failures - 1) := by
  have hpow : 2 ^ 64 ≤ 2 ^ (failures - 1) := Nat.pow_le_pow_right (by decide) (by omega)
  calc b.maxDelayMs ≤ 2 ^ 64 := h.trans (by decide)
    _ ≤ 2 ^ (failures - 1) := hpow
    _ ≤ b.baseDelayMs * 2 ^ (failures - 1) := Nat.le_mul_of_pos_left _ hbase

/-- A base of one doubled 63 times is below a greater bound, where the doubling would go on. -/
theorem StaysBelow.delayFor_eq (h : b.maxDelayMs ≤ ceiling) (hstays : b.StaysBelow failures) :
    b.delayFor failures = 2 ^ 63 := by
  obtain ⟨hbase, hmany, hbound⟩ := hstays
  rw [delayFor_of_lt h hmany, hbase, one_mul, min_eq_left hbound.le]

/-- Beyond 64 failures the bound is reached, with every base but one and zero. -/
theorem delayFor_of_not_staysBelow (h : b.maxDelayMs ≤ ceiling) (hmany : 64 < failures)
    (hstays : ¬ b.StaysBelow failures) :
    b.delayFor failures = min (b.baseDelayMs * 2 ^ (failures - 1)) b.maxDelayMs := by
  rw [delayFor_of_lt h hmany]
  rcases Nat.eq_zero_or_pos b.baseDelayMs with hzero | hpos
  · rw [hzero, zero_mul, zero_mul]
  rw [min_eq_right (maxDelayMs_le_mul h hmany hpos)]
  have hceiling : b.maxDelayMs < 2 ^ 64 := h.trans_lt (by decide)
  rcases Nat.eq_or_lt_of_le hpos with hone | htwo
  · -- with a base of one it is the bound that is low
    have hbound : b.maxDelayMs ≤ 2 ^ 63 :=
      not_lt.1 fun hlt => hstays ⟨hone.symm, hmany, hlt⟩
    rw [← hone]
    omega
  · omega

/-- In the exception the doubling goes on to the bound, and the delay does not. -/
theorem StaysBelow.delayFor_ne (h : b.maxDelayMs ≤ ceiling) (hstays : b.StaysBelow failures) :
    b.delayFor failures ≠ min (b.baseDelayMs * 2 ^ (failures - 1)) b.maxDelayMs := by
  have hreached := maxDelayMs_le_mul h hstays.2.1 hstays.1.ge
  rw [hstays.delayFor_eq h, min_eq_right hreached]
  exact hstays.2.2.ne

/-- The exception is the only one. -/
theorem delayFor_eq_iff (h : b.maxDelayMs ≤ ceiling) (failures : Nat) :
    b.delayFor failures = min (b.baseDelayMs * 2 ^ (failures - 1)) b.maxDelayMs ↔
      ¬ b.StaysBelow failures := by
  constructor
  · intro heq hstays
    exact hstays.delayFor_ne h heq
  · intro hstays
    rcases Nat.lt_or_ge 64 failures with hmany | hfew
    · exact delayFor_of_not_staysBelow h hmany hstays
    · exact delayFor_of_le h hfew

/-- One more failure never shortens the delay. -/
theorem monotone_delayFor (h : b.maxDelayMs ≤ ceiling) : Monotone b.delayFor := by
  intro k l hkl
  have hshift : min (k - 1) 63 ≤ min (l - 1) 63 := min_le_min (by omega) le_rfl
  have hpow : 2 ^ min (k - 1) 63 ≤ 2 ^ min (l - 1) 63 := Nat.pow_le_pow_right (by decide) hshift
  rw [delayFor_eq_min h, delayFor_eq_min h]
  exact min_le_min (Nat.mul_le_mul_left _ hpow) le_rfl

theorem delayFor_le (b : Backoff) (failures : Nat) : b.delayFor failures ≤ b.maxDelayMs :=
  min_le_right _ _

/-- Delays. With a bound of 64 bits the delay is the base doubled for each failure after the first,
cut off at the bound, for every number of failures but one exception: with a base of one and a bound
beyond `2 ^ 63` it stays at `2 ^ 63` from there on. It always has 64 bits, is at most the bound, and
never decreases as failures are added. -/
theorem doubles_up_to_bound (b : Backoff) (h : b.maxDelayMs ≤ ceiling) :
    (∀ failures, 1 ≤ failures →
      (b.delayFor failures = min (b.baseDelayMs * 2 ^ (failures - 1)) b.maxDelayMs ↔
        ¬ (b.baseDelayMs = 1 ∧ 64 < failures ∧ 2 ^ 63 < b.maxDelayMs)) ∧
      (b.baseDelayMs = 1 ∧ 64 < failures ∧ 2 ^ 63 < b.maxDelayMs →
        b.delayFor failures = 2 ^ 63)) ∧
    (∀ failures, b.delayFor failures < 2 ^ 64 ∧ b.delayFor failures ≤ b.maxDelayMs) ∧
    Monotone b.delayFor := by
  refine ⟨fun failures _ => ⟨delayFor_eq_iff h failures, StaysBelow.delayFor_eq h⟩,
    fun failures => ⟨?_, delayFor_le b failures⟩, monotone_delayFor h⟩
  calc b.delayFor failures ≤ b.maxDelayMs := delayFor_le b failures
    _ ≤ ceiling := h
    _ < 2 ^ 64 := by decide

/-- From a base of one below the greatest bound there is, the 64th delay is `2 ^ 63`, and so is
every later one. -/
theorem doubles_up_to_bound_from_one :
    let b : Backoff := ⟨1, ceiling⟩
    b.maxDelayMs ≤ ceiling ∧ b.delayFor 64 = 2 ^ 63 ∧ b.delayFor 65 = 2 ^ 63 ∧
      b.delayFor 65 ≠ min (b.baseDelayMs * 2 ^ 64) b.maxDelayMs := by
  intro b
  have h : b.maxDelayMs ≤ ceiling := le_rfl
  have hcorner : b.baseDelayMs = 1 ∧ 64 < 65 ∧ 2 ^ 63 < b.maxDelayMs :=
    ⟨rfl, by decide, by decide⟩
  obtain ⟨hdelay, -, -⟩ := doubles_up_to_bound b h
  refine ⟨h, ?_, (hdelay 65 (by decide)).2 hcorner, fun heq => ?_⟩
  · rw [(hdelay 64 (by decide)).1.2 (by decide)]
    decide
  · exact (hdelay 65 (by decide)).1.1 heq hcorner

end Backoff

end Handover
