import Handover.Proofs.Pass

/-!
# The counters of a migration, whatever the platform answers

A migration that was started with a resolved goal keeps its counters balanced over any sequence of
passes, and no pass takes anything back or moves both sides (`Registry.counters_afterPasses`). The
client is arbitrary, and so is the state that each pass finds it in. What carries the runs is a
statement about one pass: the counters stay, or they take one planned step
(`Migration.counters_conclude_pass`).
-/

namespace Handover

/-! ## Goals -/

/-- A surge bound that has passed validation is positive. -/
theorem Request.one_le_of_validate {request : Request} (h : request.validate = .ok ()) {n : Int}
    (hn : request.maxSurge = some n) : 1 ≤ n := by
  by_contra hlt
  -- a smaller bound would have been found
  have hfilter : request.maxSurge.filter (· < 1) = some n := by
    rw [hn, Option.filter_some, if_pos (decide_eq_true (by omega))]
  unfold validate at h
  rw [hfilter] at h
  split at h <;> simp_all

/-- A resolved goal has a positive target and a positive surge bound. -/
theorem Request.of_resolve_eq_ok {request : Request} {declared : Int} {goal : Goal}
    (h : request.resolve declared = .ok goal) : 1 ≤ goal.replicas ∧ 1 ≤ goal.maxSurge := by
  unfold resolve at h
  cases hvalid : request.validate with
  | error fault => rw [hvalid] at h; cases h
  | ok =>
    rw [hvalid] at h
    dsimp only at h
    split_ifs at h with hreplicas
    cases h
    dsimp only
    refine ⟨by omega, ?_⟩
    cases hsurge : request.maxSurge with
    | none => exact le_refl 1
    | some n => exact one_le_of_validate hvalid hsurge

/-! ## One pass -/

namespace Counters

/-- A step moves at most one of the two counters. -/
theorem after_src_or_dst (c : Counters) (step : Step) :
    (c.after step).src = c.src ∨ (c.after step).dst = c.dst := by
  cases step with
  | scaleOut n => exact .inl rfl
  | scaleIn n => exact .inr rfl
  | complete => exact .inl rfl
  | wait reason => exact .inl rfl

/-- A planned step takes nothing back. -/
theorem le_after_plan (target maxSurge : Int) (c : Counters) (o : Observation) :
    c.src ≤ (c.after (plan target maxSurge c o)).src ∧
      c.dst ≤ (c.after (plan target maxSurge c o)).dst := by
  cases hstep : plan target maxSurge c o with
  | complete => exact ⟨le_refl _, le_refl _⟩
  | wait reason => exact ⟨le_refl _, le_refl _⟩
  | scaleOut n =>
    obtain ⟨hpos, -⟩ := of_plan_eq_scaleOut hstep
    simp only [after]
    omega
  | scaleIn n =>
    obtain ⟨hpos, -⟩ := of_plan_eq_scaleIn hstep
    simp only [after]
    omega

/-- Counters that have not moved, or are both within the target. -/
def Within (target : Int) (c : Counters) : Prop :=
  c = .zero ∨ c.src ≤ target ∧ c.dst ≤ target

theorem Balanced.within {target maxSurge : Int} {c : Counters} (h : c.Balanced target maxSurge) :
    c.Within target :=
  .inr ⟨h.src_le_dst.trans h.dst_le_target, h.dst_le_target⟩

/-- A planned move leads from counters within the target to counters within the target. -/
theorem Within.after_plan {target maxSurge n : Int} {c : Counters} {o : Observation} {side : Side}
    (h : c.Within target) (hplan : plan target maxSurge c o = side.step n) :
    (c.after (side.step n)).src ≤ target ∧ (c.after (side.step n)).dst ≤ target := by
  cases side with
  | src =>
    obtain ⟨hpos, -, htarget, -⟩ := of_plan_eq_scaleIn hplan
    rcases h with rfl | ⟨hs, hd⟩ <;> simp only [Side.step, after, zero] at * <;> omega
  | dst =>
    obtain ⟨hpos, htarget, -⟩ := of_plan_eq_scaleOut hplan
    rcases h with rfl | ⟨hs, hd⟩ <;> simp only [Side.step, after, zero] at * <;> omega

end Counters

namespace Migration

variable {σ : Type}

/-- Concluding with an intended write that landed is taking the planned step: the target cuts
nothing off. -/
theorem counters_conclude_landed {m : Migration} {src dst : Workload} {side : Side} {n : Int}
    (hwithin : m.counters.Within m.goal.replicas) (h : m.intent src dst = .write side n) (now : Nat)
    (generation : Int) :
    (m.conclude now (.landed side n generation)).counters = m.counters.after (side.step n) := by
  obtain ⟨-, hplan, -⟩ := intent_eq_write_iff.1 h
  obtain ⟨hsrc, hdst⟩ := hwithin.after_plan hplan
  rw [counters_conclude]
  -- counting is cut off at the target, which the planned step does not pass
  cases side with
  | src =>
    obtain ⟨hpos, -⟩ := of_plan_eq_scaleIn hplan
    simp only [Side.step, Counters.after] at hsrc hdst
    simp only [advanceSide, advance, Side.step, Counters.after, Counters.mk.injEq]
    omega
  | dst =>
    obtain ⟨hpos, -⟩ := of_plan_eq_scaleOut hplan
    simp only [Side.step, Counters.after] at hsrc hdst
    simp only [advanceSide, advance, Side.step, Counters.after, Counters.mk.injEq]
    omega

/-- Over one pass the counters stay as they are or take one planned step. -/
theorem counters_conclude_pass {m : Migration} (hwithin : m.counters.Within m.goal.replicas)
    (client : Client σ) (limit now : Nat) (s : σ) :
    (m.conclude now (m.pass client limit now s).1).counters = m.counters ∨
    ∃ (o : Observation) (side : Side) (n : Int),
      plan m.goal.replicas m.goal.maxSurge m.counters o = side.step n ∧
      (m.conclude now (m.pass client limit now s).1).counters = m.counters.after (side.step n) := by
  cases hpass : (m.pass client limit now s).1 with
  | landed side n generation =>
    obtain ⟨src, dst, -, hintent⟩ := of_pass_landed hpass
    refine .inr ⟨observe src dst, side, n, (intent_eq_write_iff.1 hintent).2.1, ?_⟩
    exact counters_conclude_landed hwithin hintent now generation
  | unchanged => exact .inl (counters_conclude m now _)
  | succeeded => exact .inl (counters_conclude m now _)
  | failed cause => exact .inl (counters_conclude m now _)
  | refused e => exact .inl (counters_conclude m now _)

/-- Counters within the target stay so. -/
theorem within_conclude_pass {m : Migration} (hwithin : m.counters.Within m.goal.replicas)
    (client : Client σ) (limit now : Nat) (s : σ) :
    (m.conclude now (m.pass client limit now s).1).counters.Within m.goal.replicas := by
  rcases counters_conclude_pass hwithin client limit now s with hstay | ⟨o, side, n, hplan, hstep⟩
  · rw [hstay]
    exact hwithin
  · rw [hstep]
    exact .inr (hwithin.after_plan hplan)

/-- A pass keeps balanced counters balanced, takes nothing back and moves at most one of them. -/
theorem balanced_conclude_pass {m : Migration}
    (h : m.counters.Balanced m.goal.replicas m.goal.maxSurge) (client : Client σ)
    (limit now : Nat) (s : σ) :
    let after := (m.conclude now (m.pass client limit now s).1).counters
    after.Balanced m.goal.replicas m.goal.maxSurge ∧ m.counters.src ≤ after.src ∧
      m.counters.dst ≤ after.dst ∧ (after.src = m.counters.src ∨ after.dst = m.counters.dst) := by
  rcases counters_conclude_pass h.within client limit now s with
    hstay | ⟨o, side, n, hplan, hstep⟩
  · dsimp only
    rw [hstay]
    exact ⟨h, le_refl _, le_refl _, .inl rfl⟩
  · dsimp only
    rw [hstep, ← hplan]
    obtain ⟨hle_src, hle_dst⟩ := Counters.le_after_plan m.goal.replicas m.goal.maxSurge m.counters o
    exact ⟨h.after_plan o, hle_src, hle_dst, Counters.after_src_or_dst _ _⟩

end Migration

/-! ## Any sequence of passes -/

namespace Registry

variable {σ : Type}

/-- The registry after passes over a migration. Each pass has its own time and finds the client in a
state of its own, so whatever has become of the platform since the last one is covered. -/
def afterPasses (client : Client σ) (limit : Nat) (id : MigrationId) (g : Registry)
    (passes : List (Nat × σ)) : Registry :=
  passes.foldl (fun g (now, s) => (g.reconcile client limit now id s).2.1) g

/-- What runs preserve: the migration is known, pursues its goal and has balanced counters. -/
theorem exists_balanced_afterPasses (client : Client σ) (limit : Nat) {g : Registry}
    {id : MigrationId} {m : Migration} (hm : g.get? id = some m)
    (h : m.counters.Balanced m.goal.replicas m.goal.maxSurge) (passes : List (Nat × σ)) :
    ∃ m', (g.afterPasses client limit id passes).get? id = some m' ∧ m'.goal = m.goal ∧
      m'.counters.Balanced m.goal.replicas m.goal.maxSurge := by
  induction passes generalizing g m with
  | nil => exact ⟨m, hm, rfl, h⟩
  | cons pass rest ih =>
    obtain ⟨now, s⟩ := pass
    have hget := (reconcile_of_get? hm client limit now s).1
    obtain ⟨m', hm', hgoal, hbalanced⟩ := ih hget (by
      rw [Migration.goal_conclude]
      exact (Migration.balanced_conclude_pass h client limit now s).1)
    rw [Migration.goal_conclude] at hgoal hbalanced
    exact ⟨m', hm', hgoal, hbalanced⟩

/-- After any passes over a migration that was started with a resolved goal, whatever any client
answers: the counters are balanced, and the next pass takes nothing back and moves at most one. -/
theorem counters_afterPasses (client : Client σ) (limit : Nat) {request : Request}
    {declared : Int} {goal : Goal} (hgoal : request.resolve declared = .ok goal) {g : Registry}
    {id : MigrationId} {src dst : ResourceRef} {pair : Pair} {baseline : Generations}
    {started : Nat} (hm : g.get? id = some (.start id src dst pair goal baseline started))
    (passes : List (Nat × σ)) :
    ∃ m, (g.afterPasses client limit id passes).get? id = some m ∧
      m.counters.Balanced goal.replicas goal.maxSurge ∧
      ∀ now s, ∃ m', (g.afterPasses client limit id (passes ++ [(now, s)])).get? id = some m' ∧
        m.counters.src ≤ m'.counters.src ∧ m.counters.dst ≤ m'.counters.dst ∧
        (m'.counters.src = m.counters.src ∨ m'.counters.dst = m.counters.dst) := by
  obtain ⟨htarget, hsurge⟩ := Request.of_resolve_eq_ok hgoal
  have hzero : Counters.zero.Balanced goal.replicas goal.maxSurge :=
    Counters.balanced_zero (by omega) (by omega)
  obtain ⟨m, hget, hm_goal, hbalanced⟩ :=
    exists_balanced_afterPasses client limit hm hzero passes
  have hm_goal : m.goal = goal := hm_goal
  refine ⟨m, hget, hbalanced, fun now s => ?_⟩
  refine ⟨m.conclude now (m.pass client limit now s).1, ?_, ?_⟩
  · unfold afterPasses at hget ⊢
    rw [List.foldl_append, List.foldl_cons, List.foldl_nil]
    exact (reconcile_of_get? hget client limit now s).1
  · exact (Migration.balanced_conclude_pass (hm_goal ▸ hbalanced) client limit now s).2

/-- Passes at two times over a migration of three replicas, two at once, the first of which finds a
settled platform and the second an empty one. -/
theorem counters_afterPasses_settled_then_empty :
    let web : ResourceRef := .of .deployment "default" "web"
    let webCs : ResourceRef := .of .cloneSet "default" "web-cs"
    let goal : Goal := ⟨3, 2, some 1000⟩
    let m₀ : Migration := .start ⟨7⟩ web webCs .deploymentToCloneSet goal ⟨1, 1⟩ 0
    let g := Registry.empty.register m₀
    let filled := ((Platform.empty 4).put
      ((Workload.named .deployment "default" "web").withReplicas (some 3))).2.put
      (Workload.named .cloneSet "default" "web-cs")
    let passes := [(10, filled.2.settleAll.2), (20, Platform.empty 4)]
    Request.resolve ⟨none, some 2, some 1, false⟩ 3 = .ok goal ∧ g.get? ⟨7⟩ = some m₀ ∧
      ∃ m, (g.afterPasses Platform.client 5 ⟨7⟩ passes).get? ⟨7⟩ = some m ∧
        m.counters.Balanced 3 2 ∧
        ∀ now s, ∃ m',
          (g.afterPasses Platform.client 5 ⟨7⟩ (passes ++ [(now, s)])).get? ⟨7⟩ = some m' ∧
          m.counters.src ≤ m'.counters.src ∧ m.counters.dst ≤ m'.counters.dst ∧
          (m'.counters.src = m.counters.src ∨ m'.counters.dst = m.counters.dst) :=
  have hgoal : Request.resolve ⟨none, some 2, some 1, false⟩ 3 = .ok ⟨3, 2, some 1000⟩ := rfl
  ⟨hgoal, rfl, counters_afterPasses Platform.client 5 hgoal rfl _⟩

end Registry

end Handover
