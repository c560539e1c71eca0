import Handover.Proofs.Plan
import Mathlib.Algebra.Order.Floor.Div

/-!
# The counters of an undisturbed migration

When every step that is planned is taken, and both objects have settled before the next one is
planned, the counters after `k` steps have a closed form (`Counters.undisturbed`). Steps give and
take in turn: the destination is given the surge bound, then the source is relieved of as much, and
so on until the target is reached or the source has nothing left. The closed form follows the plan
(`Counters.next_undisturbed`); how long the counters move is counted in `cycles` of two steps.
-/

namespace Handover

/-- The number of times that a target makes the surge bound, rounded up. -/
def cycles (target maxSurge : Int) : Nat :=
  target.toNat ⌈/⌉ maxSurge.toNat

variable {target maxSurge N : Int} {k : Nat}

theorem cycles_le_iff (ht : 0 ≤ target) (hs : 1 ≤ maxSurge) {n : Nat} :
    cycles target maxSurge ≤ n ↔ target ≤ maxSurge * n := by
  unfold cycles
  rw [ceilDiv_le_iff_le_mul (by omega)]
  obtain ⟨t, rfl⟩ := Int.eq_ofNat_of_zero_le ht
  obtain ⟨s, rfl⟩ := Int.eq_ofNat_of_zero_le (Int.le_of_lt hs)
  exact_mod_cast Iff.rfl

namespace Counters

/-- The counters after `k` steps of an undisturbed migration whose source declares `N` replicas at
the start. -/
def undisturbed (target maxSurge N : Int) (k : Nat) : Counters :=
  ⟨min (min target (max N 0)) (maxSurge * (k / 2 : Nat)),
    min (min target (max N 0 + maxSurge)) (maxSurge * ((k + 1) / 2 : Nat))⟩

/-- What is observed of two settled objects that declared `N` and `D` replicas at the start. -/
def forecast (c : Counters) (N D : Int) : Observation :=
  ⟨N - c.src, D + c.dst, D + c.dst⟩

/-- The counters after the step that is planned on settled objects. -/
def next (target maxSurge N D : Int) (c : Counters) : Counters :=
  c.after (plan target maxSurge c (c.forecast N D))

/-- With as much taken as given, an undisturbed migration is at the start of a cycle. -/
theorem undisturbed_even (target maxSurge N : Int) (n : Nat) :
    undisturbed target maxSurge N (2 * n) =
      ⟨min (min target (max N 0)) (maxSurge * n),
        min (min target (max N 0 + maxSurge)) (maxSurge * n)⟩ := by
  unfold undisturbed
  rw [show 2 * n / 2 = n by omega, show (2 * n + 1) / 2 = n by omega]

/-- In the middle of a cycle the destination has been given the surge bound once more. -/
theorem undisturbed_odd (target maxSurge N : Int) (n : Nat) :
    undisturbed target maxSurge N (2 * n + 1) =
      ⟨min (min target (max N 0)) (maxSurge * n),
        min (min target (max N 0 + maxSurge)) (maxSurge * n + maxSurge)⟩ := by
  unfold undisturbed
  rw [show (2 * n + 1) / 2 = n by omega, show (2 * n + 1 + 1) / 2 = n + 1 by omega, Nat.cast_succ,
    mul_add, mul_one]

/-- At the end of a cycle the source has been relieved of the surge bound once more. -/
theorem undisturbed_even_succ (target maxSurge N : Int) (n : Nat) :
    undisturbed target maxSurge N (2 * n + 1 + 1) =
      ⟨min (min target (max N 0)) (maxSurge * n + maxSurge),
        min (min target (max N 0 + maxSurge)) (maxSurge * n + maxSurge)⟩ := by
  rw [show 2 * n + 1 + 1 = 2 * (n + 1) from rfl, undisturbed_even, Nat.cast_succ, mul_add, mul_one]

theorem undisturbed_zero (ht : 0 ≤ target) (hs : 0 ≤ maxSurge) (N : Int) :
    undisturbed target maxSurge N 0 = .zero := by
  rw [show 0 = 2 * 0 from rfl, undisturbed_even, zero, Counters.mk.injEq, Nat.cast_zero, mul_zero]
  omega

/-- The plan leads from the counters after `k` steps to those after one more. -/
theorem next_undisturbed (ht : 0 ≤ target) (hs : 1 ≤ maxSurge) (N D : Int) (k : Nat) :
    (undisturbed target maxSurge N k).next target maxSurge N D =
      undisturbed target maxSurge N (k + 1) := by
  obtain ⟨n, rfl | rfl⟩ := Nat.even_or_odd' k
  · -- at the start of a cycle there is room for the destination, or the counters are final
    have hmoved : 0 ≤ maxSurge * n := Int.mul_nonneg (by omega) (by omega)
    rw [undisturbed_even, undisturbed_odd]
    generalize maxSurge * n = moved at hmoved
    simp only [next, plan, outAmount, inAmount, forecast, lead]
    split_ifs <;> simp only [after, Counters.mk.injEq, true_and] <;> omega
  · -- in the middle of one the source is relieved of what the destination is ahead, if it has it
    have hmoved : 0 ≤ maxSurge * n := Int.mul_nonneg (by omega) (by omega)
    rw [undisturbed_odd, undisturbed_even_succ]
    generalize maxSurge * n = moved at hmoved
    simp only [next, plan, outAmount, inAmount, forecast, lead]
    split_ifs <;> simp only [after, Counters.mk.injEq, and_true] <;> omega

/-- Three replicas, at most two at once. -/
example : (List.range 5).map (undisturbed 3 2 3) =
    [⟨0, 0⟩, ⟨0, 2⟩, ⟨2, 2⟩, ⟨2, 3⟩, ⟨3, 3⟩] := by decide

theorem balanced_undisturbed (ht : 0 ≤ target) (hs : 1 ≤ maxSurge) (N : Int) (k : Nat) :
    (undisturbed target maxSurge N k).Balanced target maxSurge := by
  induction k with
  | zero =>
    rw [undisturbed_zero ht (by omega)]
    exact balanced_zero ht (by omega)
  | succ k ih =>
    rw [← next_undisturbed ht hs N 0 k]
    exact ih.after_plan _

/-- After all cycles the counters stay: the target is reached, or the source has nothing left and
the destination is ahead by as much as it may. -/
theorem undisturbed_of_le (ht : 0 ≤ target) (hs : 1 ≤ maxSurge)
    (hk : 2 * cycles target maxSurge ≤ k) :
    undisturbed target maxSurge N k = ⟨min target (max N 0), min target (max N 0 + maxSurge)⟩ := by
  have hsrc : target ≤ maxSurge * (k / 2 : Nat) := (cycles_le_iff ht hs).1 (by omega)
  have hdst : target ≤ maxSurge * ((k + 1) / 2 : Nat) := (cycles_le_iff ht hs).1 (by omega)
  unfold undisturbed
  rw [min_eq_left ((min_le_left _ _).trans hsrc), min_eq_left ((min_le_left _ _).trans hdst)]

/-- After all cycles no step moves anything. -/
theorem undisturbed_succ_of_le (ht : 0 ≤ target) (hs : 1 ≤ maxSurge)
    (hk : 2 * cycles target maxSurge ≤ k) :
    undisturbed target maxSurge N (k + 1) = undisturbed target maxSurge N k := by
  rw [undisturbed_of_le ht hs (by omega), undisturbed_of_le ht hs hk]

/-- Both counters come to the target just if the source can give as much, and then after all
cycles. -/
theorem undisturbed_eq_target_iff (ht : 1 ≤ target) (hs : 1 ≤ maxSurge) :
    undisturbed target maxSurge N k = ⟨target, target⟩ ↔
      target ≤ N ∧ 2 * cycles target maxSurge ≤ k := by
  constructor
  · intro h
    rw [undisturbed, Counters.mk.injEq] at h
    have hle : cycles target maxSurge ≤ k / 2 := (cycles_le_iff (by omega) hs).2 (by omega)
    omega
  · rintro ⟨hN, hk⟩
    rw [undisturbed_of_le (by omega) hs hk, Counters.mk.injEq]
    omega

/-- Until all cycles are done, each step towards a target that the source can give moves
replicas. -/
theorem undisturbed_succ_ne (ht : 0 ≤ target) (hs : 1 ≤ maxSurge) (hN : target ≤ N)
    (hk : k < 2 * cycles target maxSurge) :
    undisturbed target maxSurge N (k + 1) ≠ undisturbed target maxSurge N k := by
  have hless : maxSurge * (k / 2 : Nat) < target := by
    rw [← not_le, ← cycles_le_iff ht hs]
    omega
  obtain ⟨n, rfl | rfl⟩ := Nat.even_or_odd' k
  · rw [show 2 * n / 2 = n by omega] at hless
    rw [undisturbed_even, undisturbed_odd, Ne, Counters.mk.injEq]
    omega
  · rw [show (2 * n + 1) / 2 = n by omega] at hless
    rw [undisturbed_odd, undisturbed_even_succ, Ne, Counters.mk.injEq]
    omega

end Counters

end Handover
