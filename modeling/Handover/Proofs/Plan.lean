import Handover.Plan
import Mathlib.Order.Lattice
import Mathlib.Tactic.SplitIfs

/-!
# The planned step keeps the counters balanced

Counters are `Balanced` for a target and a surge bound when the destination is never behind the
source, never beyond the target, and never further ahead than the bound. Whatever is observed, the
planned step leads from balanced counters to balanced counters (`Balanced.after_plan`). The two
kinds of step that move replicas and the one that ends a migration are read back from the plan by
`of_plan_eq_scaleOut`, `of_plan_eq_scaleIn` and `of_plan_eq_complete`.
-/

namespace Handover

/-- Counters that a migration with this target and this surge bound may have. -/
structure Counters.Balanced (target maxSurge : Int) (c : Counters) : Prop where
  src_nonneg : 0 ≤ c.src
  src_le_dst : c.src ≤ c.dst
  dst_le_target : c.dst ≤ target
  lead_le_maxSurge : c.lead ≤ maxSurge

variable {target maxSurge n : Int} {c : Counters} {o : Observation}

/-- Counters that have not moved are balanced. -/
theorem Counters.balanced_zero (ht : 0 ≤ target) (hs : 0 ≤ maxSurge) :
    Counters.zero.Balanced target maxSurge :=
  ⟨le_refl 0, le_refl 0, ht, hs⟩

/-- The destination is given a positive amount, of which the target and the bound leave room. -/
theorem of_plan_eq_scaleOut (h : plan target maxSurge c o = .scaleOut n) :
    0 < n ∧ n ≤ target - c.dst ∧ n ≤ maxSurge - c.lead := by
  unfold plan at h
  split_ifs at h with hcomplete hout hin havailable
  simp only [Step.scaleOut.injEq] at h
  subst h
  refine ⟨hout.2, ?_, ?_⟩
  · exact min_le_right _ _
  · exact min_le_left _ _

/-- The source is relieved of a positive amount, at most of what it declares, what is left to the
target and what the destination is ahead; and then the destination is fully available. -/
theorem of_plan_eq_scaleIn (h : plan target maxSurge c o = .scaleIn n) :
    0 < n ∧ n ≤ o.srcDeclared ∧ n ≤ target - c.src ∧ n ≤ c.lead ∧
      o.dstDeclared = o.dstAvailable := by
  unfold plan at h
  split_ifs at h with hcomplete hout hin havailable
  simp only [Step.scaleIn.injEq] at h
  subst h
  refine ⟨hin.2, ?_, ?_, ?_, havailable⟩
  · exact (min_le_left _ _).trans (min_le_left _ _)
  · exact (min_le_left _ _).trans (min_le_right _ _)
  · exact min_le_right _ _

/-- A migration is complete when both counters have come to the target. -/
theorem of_plan_eq_complete (h : plan target maxSurge c o = .complete) :
    target ≤ c.src ∧ target ≤ c.dst := by
  unfold plan at h
  split_ifs at h with hcomplete hout hin havailable
  exact hcomplete

namespace Counters

/-- The planned step keeps the counters balanced, whatever is observed. -/
theorem Balanced.after_plan (h : c.Balanced target maxSurge) (o : Observation) :
    (c.after (plan target maxSurge c o)).Balanced target maxSurge := by
  obtain ⟨hsrc, hle, hdst, hlead⟩ := h
  cases hstep : plan target maxSurge c o with
  | complete => exact ⟨hsrc, hle, hdst, hlead⟩
  | wait => exact ⟨hsrc, hle, hdst, hlead⟩
  | scaleOut n =>
    obtain ⟨hpos, htarget, hbound⟩ := of_plan_eq_scaleOut hstep
    simp only [lead] at hbound hlead
    constructor <;> simp only [after, lead] <;> omega
  | scaleIn n =>
    obtain ⟨hpos, -, htarget, hbound, -⟩ := of_plan_eq_scaleIn hstep
    simp only [lead] at hbound hlead
    constructor <;> simp only [after, lead] <;> omega

end Counters

end Handover
