import Handover.Proofs.Plan
import Mathlib.Order.Bounds.Basic

/-!
# The planned step is the greatest that is safe

On balanced counters the plan is a split into five cases (`Counters.Balanced.plan_eq`): the
migration is complete, the destination has room, the source has nothing left, the destination has to
catch up, or the source is relieved of what the destination is ahead. The amount of a step that
moves replicas is the greatest one that leaves the counters balanced and takes no more from the
source than is there (`plan_greatest`), so nothing waits that could go on.
-/

namespace Handover

variable {target maxSurge : Int} {c : Counters}

namespace Counters

theorem eq_mk_iff {src dst : Int} : c = ⟨src, dst⟩ ↔ c.src = src ∧ c.dst = dst := by
  cases c
  rw [mk.injEq]

/-- Counters that have both reached the target are at it. -/
theorem Balanced.complete_iff (h : c.Balanced target maxSurge) :
    target ≤ c.src ∧ target ≤ c.dst ↔ c = ⟨target, target⟩ := by
  obtain ⟨hsrc, hle, hdst, hlead⟩ := h
  rw [eq_mk_iff]
  omega

/-- Where the destination has no room although the migration is not complete, it is ahead of the
source, and what it is ahead is left to the target. -/
theorem Balanced.lead_pos (h : c.Balanced target maxSurge) (hs : 1 ≤ maxSurge)
    (hincomplete : c ≠ ⟨target, target⟩) (hfull : outAmount target maxSurge c ≤ 0) :
    0 < c.lead ∧ c.lead ≤ target - c.src := by
  have hshort : ¬ (target ≤ c.src ∧ target ≤ c.dst) := mt h.complete_iff.1 hincomplete
  obtain ⟨hsrc, hle, hdst, hlead⟩ := h
  unfold outAmount at hfull
  unfold lead at hfull hlead ⊢
  omega

/-- The five cases of the plan. -/
theorem Balanced.plan_eq (h : c.Balanced target maxSurge) (hs : 1 ≤ maxSurge) (o : Observation) :
    plan target maxSurge c o =
      if c = ⟨target, target⟩ then .complete
      else if 0 < outAmount target maxSurge c then .scaleOut (outAmount target maxSurge c)
      else if o.srcDeclared ≤ 0 then .wait .idle
      else if o.dstDeclared ≠ o.dstAvailable then .wait .destinationUnavailable
      else .scaleIn (min o.srcDeclared c.lead) := by
  unfold plan
  by_cases hcomplete : c = ⟨target, target⟩
  · rw [if_pos (h.complete_iff.2 hcomplete), if_pos hcomplete]
  rw [if_neg (mt h.complete_iff.1 hcomplete), if_neg hcomplete]
  by_cases hroom : 0 < outAmount target maxSurge c
  · -- room for the destination is room up to the target
    have hdst : c.dst < target := by
      have hle : outAmount target maxSurge c ≤ target - c.dst := min_le_right _ _
      omega
    rw [if_pos ⟨hdst, hroom⟩, if_pos hroom]
  rw [if_neg fun hout => hroom hout.2, if_neg hroom]
  obtain ⟨hpos, hle⟩ := h.lead_pos hs hcomplete (not_lt.1 hroom)
  -- the target is no nearer than the source is behind, so it does not bound what is taken
  have hamount : inAmount target c o = min o.srcDeclared c.lead := by
    unfold inAmount
    omega
  have hsrc : c.src < target := by omega
  by_cases hleft : o.srcDeclared ≤ 0
  · have hnothing : ¬ (c.src < target ∧ 0 < min o.srcDeclared c.lead) := by omega
    rw [hamount, if_neg hnothing, if_pos hleft]
  have hsome : 0 < min o.srcDeclared c.lead := by omega
  rw [hamount, if_pos ⟨hsrc, hsome⟩, if_neg hleft]
  by_cases havailable : o.dstDeclared = o.dstAvailable
  · rw [if_pos havailable, if_neg (not_not.2 havailable)]
  · rw [if_neg havailable, if_pos havailable]

/-- The destination may be given up to its room, and no more. -/
theorem Balanced.isGreatest_scaleOut (h : c.Balanced target maxSurge)
    (hroom : 0 < outAmount target maxSurge c) :
    IsGreatest {n | (c.after (.scaleOut n)).Balanced target maxSurge}
      (outAmount target maxSurge c) := by
  obtain ⟨hsrc, hle, hdst, hlead⟩ := h
  unfold outAmount lead at *
  constructor
  · constructor <;> simp only [after, lead] <;> omega
  · rintro n ⟨-, -, hdst', hlead'⟩
    simp only [after, lead] at hdst' hlead'
    omega

/-- The source may be relieved of what it has, up to what the destination is ahead, and no more. -/
theorem Balanced.isGreatest_scaleIn (h : c.Balanced target maxSurge) {declared : Int}
    (hdeclared : 0 < declared) (hlead : 0 < c.lead) :
    IsGreatest {n | (c.after (.scaleIn n)).Balanced target maxSurge ∧ 0 ≤ declared - n}
      (min declared c.lead) := by
  obtain ⟨hsrc, hle, hdst, hbound⟩ := h
  unfold lead at *
  constructor
  · refine ⟨?_, by omega⟩
    constructor <;> simp only [after, lead] <;> omega
  · rintro n ⟨⟨-, hle', -, -⟩, hleft⟩
    simp only [after] at hle'
    omega

/-! ## When each step is planned -/

theorem Balanced.plan_eq_complete_iff (h : c.Balanced target maxSurge) (hs : 1 ≤ maxSurge)
    (o : Observation) : plan target maxSurge c o = .complete ↔ c = ⟨target, target⟩ := by
  rw [h.plan_eq hs]
  split_ifs with hcomplete <;> simp [hcomplete]

/-- The destination is given its room whenever it has any. -/
theorem Balanced.plan_eq_scaleOut_iff (h : c.Balanced target maxSurge) (hs : 1 ≤ maxSurge)
    (o : Observation) {n : Int} :
    plan target maxSurge c o = .scaleOut n ↔ 0 < n ∧ n = outAmount target maxSurge c := by
  constructor
  · intro hplan
    rw [h.plan_eq hs] at hplan
    split_ifs at hplan with hcomplete hroom
    cases hplan
    exact ⟨hroom, rfl⟩
  · rintro ⟨hroom, rfl⟩
    -- where both counters are at the target there is no room
    have hincomplete : c ≠ ⟨target, target⟩ := by
      rintro rfl
      have hle : outAmount target maxSurge ⟨target, target⟩ ≤ target - target := min_le_right _ _
      omega
    rw [h.plan_eq hs, if_neg hincomplete, if_pos hroom]

/-- Without room for the destination it depends on what is observed. -/
theorem Balanced.plan_of_full (h : c.Balanced target maxSurge) (hs : 1 ≤ maxSurge)
    (hincomplete : c ≠ ⟨target, target⟩) (hfull : outAmount target maxSurge c ≤ 0)
    (o : Observation) :
    plan target maxSurge c o =
      if o.srcDeclared ≤ 0 then .wait .idle
      else if o.dstDeclared ≠ o.dstAvailable then .wait .destinationUnavailable
      else .scaleIn (min o.srcDeclared c.lead) := by
  rw [h.plan_eq hs, if_neg hincomplete, if_neg (not_lt.2 hfull)]

/-- The source is relieved only of what it has, and only where the destination is ahead. -/
theorem Balanced.of_plan_eq_scaleIn (h : c.Balanced target maxSurge) (hs : 1 ≤ maxSurge)
    {o : Observation} {n : Int} (hplan : plan target maxSurge c o = .scaleIn n) :
    n = min o.srcDeclared c.lead ∧ 0 < o.srcDeclared ∧ 0 < c.lead := by
  rw [h.plan_eq hs] at hplan
  split_ifs at hplan with hcomplete hroom hleft havailable
  cases hplan
  exact ⟨rfl, not_le.1 hleft, (h.lead_pos hs hcomplete (not_lt.1 hroom)).1⟩

end Counters

/-- Step planning. Whatever is observed, the step leads from balanced counters to balanced counters.
The migration is complete just if both counters are at the target; the destination is given its room
whenever it has any; else nothing is done just if the source declares nothing, or the destination is
not fully available, and else the source is relieved of what the destination is ahead, as far as it
has it. Each amount is positive, and the greatest one that leaves the counters balanced and the
source with no less than nothing. -/
theorem plan_greatest (hs : 1 ≤ maxSurge) (h : c.Balanced target maxSurge) (o : Observation) :
    let step := plan target maxSurge c o
    let room := min (maxSurge - (c.dst - c.src)) (target - c.dst)
    (c.after step).Balanced target maxSurge ∧
      (step = .complete ↔ c.src = target ∧ c.dst = target) ∧
      (∀ n, step = .scaleOut n ↔ 0 < n ∧ n = room) ∧
      (step ≠ .complete → room ≤ 0 →
        (step = .wait .idle ↔ o.srcDeclared ≤ 0) ∧
        (0 < o.srcDeclared →
          (step = .wait .destinationUnavailable ↔ o.dstDeclared ≠ o.dstAvailable) ∧
          (o.dstDeclared = o.dstAvailable → step = .scaleIn (min o.srcDeclared (c.dst - c.src))))) ∧
      (∀ n, step = .scaleOut n →
        0 < n ∧ IsGreatest {k | (c.after (.scaleOut k)).Balanced target maxSurge} n) ∧
      ∀ n, step = .scaleIn n →
        0 < n ∧ IsGreatest
          {k | (c.after (.scaleIn k)).Balanced target maxSurge ∧ 0 ≤ o.srcDeclared - k} n := by
  intro step room
  have hout (n : Int) : step = .scaleOut n ↔ 0 < n ∧ n = room := h.plan_eq_scaleOut_iff hs o
  have hcomplete : step = .complete ↔ c = ⟨target, target⟩ := h.plan_eq_complete_iff hs o
  refine ⟨h.after_plan o, ?_, hout, ?_, ?_, ?_⟩
  · rw [hcomplete, Counters.eq_mk_iff]
  · intro hincomplete hfull
    have hstep : step = _ := h.plan_of_full hs (mt hcomplete.2 hincomplete) hfull o
    rw [hstep]
    by_cases hleft : o.srcDeclared ≤ 0
    · rw [if_pos hleft]
      exact ⟨⟨fun _ => hleft, fun _ => rfl⟩, fun hpos => absurd hleft (not_le.2 hpos)⟩
    · rw [if_neg hleft]
      by_cases havailable : o.dstDeclared = o.dstAvailable
      · rw [if_neg (not_not.2 havailable)]
        simp [hleft, havailable, Counters.lead]
      · rw [if_pos havailable]
        simp [hleft, havailable]
  · intro n hn
    obtain ⟨hpos, rfl⟩ := (hout n).1 hn
    exact ⟨hpos, h.isGreatest_scaleOut hpos⟩
  · intro n hn
    obtain ⟨rfl, hdeclared, hlead⟩ := h.of_plan_eq_scaleIn hs hn
    exact ⟨lt_min hdeclared hlead, h.isGreatest_scaleIn hdeclared hlead⟩

/-- The destination is two replicas ahead of the source, but others have left the source only one:
that one is taken, and the source would not have a second one. -/
theorem plan_greatest_one_left :
    let c : Counters := ⟨1, 3⟩
    let o : Observation := ⟨1, 7, 7⟩
    c.Balanced 3 2 ∧ plan 3 2 c o = .scaleIn 1 ∧
      IsGreatest {k | (c.after (.scaleIn k)).Balanced 3 2 ∧ 0 ≤ o.srcDeclared - k} 1 := by
  intro c o
  have hc : c.Balanced 3 2 := ⟨by decide, by decide, by decide, by decide⟩
  have hstep : plan 3 2 c o = .scaleIn 1 := by decide
  obtain ⟨-, -, -, -, -, hin⟩ := plan_greatest (by decide) hc o
  exact ⟨hc, hstep, (hin 1 hstep).2⟩

end Handover
