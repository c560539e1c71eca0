import Handover.Proofs.Pass.Unhindered
import Handover.Proofs.Registry

/-!
# Undisturbed runs

A round is a pass over a migration and then the work of all controllers, which settle everything.
When nobody else changes the two objects and no update fails, the counters after `k` rounds are
those of the closed form (`Migration.OnCourse`). Such a run comes to rest after all cycles and one
more round; what it leaves, and which passes have led there, is `Stage.undisturbed_rounds`.
-/

namespace Handover

namespace Migration

variable {m : Migration} {p : Platform} {N D : Int} {k : Nat}

/-! ## One round -/

/-- A migration after `k` undisturbed rounds: its counters are those of the closed form, it has
succeeded just if the source could give the target and the round after all cycles is over, nothing
is in its way, and its two objects are settled, after the first round together with all others. -/
structure OnCourse (m : Migration) (N D : Int) (k : Nat) (p : Platform) : Prop
    extends m.Unhindered N D p where
  counters_eq : m.counters = .undisturbed m.goal.replicas m.goal.maxSurge N k
  phase_eq : m.phase =
    if m.goal.replicas ≤ N ∧ 2 * cycles m.goal.replicas m.goal.maxSurge < k then .succeeded
    else .executing
  settled : ∀ side, p.SettledAt (m.refOf side)
  all_settled : 0 < k → p.Settled

theorem OnCourse.balanced (h : m.OnCourse N D k p) (hgoal : m.goal.Feasible N D) :
    m.counters.Balanced m.goal.replicas m.goal.maxSurge := by
  have htarget := hgoal.one_le_replicas
  rw [h.counters_eq]
  exact Counters.balanced_undisturbed (by omega) hgoal.one_le_maxSurge N k

theorem OnCourse.executing_iff (h : m.OnCourse N D k p) :
    m.isTerminal = false ↔
      ¬ (m.goal.replicas ≤ N ∧ 2 * cycles m.goal.replicas m.goal.maxSurge < k) := by
  rw [← phase_eq_executing_iff, h.phase_eq]
  split <;> simp [*]

theorem OnCourse.isComplete_iff (h : m.OnCourse N D k p) (hgoal : m.goal.Feasible N D) :
    m.isComplete = true ↔
      m.goal.replicas ≤ N ∧ 2 * cycles m.goal.replicas m.goal.maxSurge ≤ k := by
  unfold isComplete
  rw [decide_eq_true_iff, h.counters_eq]
  exact Counters.undisturbed_eq_target_iff hgoal.one_le_replicas hgoal.one_le_maxSurge

/-- What the pass of a round does: nothing after the end, end the migration when all cycles are
done, and before that wait or move on, as the closed form does. -/
theorem OnCourse.pass_cases (h : m.OnCourse N D k p) (hgoal : m.goal.Feasible N D)
    (limit now : Nat) :
    let full := 2 * cycles m.goal.replicas m.goal.maxSurge
    let counters := Counters.undisturbed m.goal.replicas m.goal.maxSurge N
    (m.goal.replicas ≤ N ∧ full < k ∧ m.pass Platform.client limit now p = (.unchanged, p)) ∨
    (m.goal.replicas ≤ N ∧ full = k ∧ m.pass Platform.client limit now p = (.succeeded, p)) ∨
    ¬ (m.goal.replicas ≤ N ∧ full ≤ k) ∧
      ((m.pass Platform.client limit now p = (.unchanged, p) ∧ counters (k + 1) = counters k) ∨
        ∃ side n generation,
          (m.pass Platform.client limit now p).1 = .landed side n generation ∧
          (m.conclude now (.landed side n generation)).counters = counters (k + 1) ∧
          counters (k + 1) ≠ counters k) := by
  intro full counters
  have htarget := hgoal.one_le_replicas
  -- the three reasons of a pass for what it does, in the order in which it looks for them
  cases hterminal : m.isTerminal with
  | true =>
    have hended := mt h.executing_iff.2 (by simp [hterminal])
    obtain ⟨hN, hk⟩ := Decidable.not_not.1 hended
    exact .inl ⟨hN, hk, m.pass_of_isTerminal hterminal Platform.client limit now p⟩
  | false =>
    have hexecuting := h.executing_iff.1 hterminal
    refine .inr ?_
    cases hcomplete : m.isComplete with
    | true =>
      obtain ⟨hN, hk⟩ := (h.isComplete_iff hgoal).1 hcomplete
      refine .inl ⟨hN, by omega, ?_⟩
      unfold pass
      rw [hterminal, hcomplete]
      rfl
    | false =>
      have hnot := mt (h.isComplete_iff hgoal).2 (by simp [hcomplete])
      have hnext := Counters.next_undisturbed (by omega : 0 ≤ m.goal.replicas)
        hgoal.one_le_maxSurge N D k
      rw [← h.counters_eq] at hnext
      have hpass := h.toUnhindered.pass_cases h.settled hgoal (h.balanced hgoal) hterminal hcomplete
        limit now
      dsimp only at hpass
      rw [hnext, h.counters_eq] at hpass
      exact .inr ⟨hnot, hpass⟩

/-- A migration that starts, with the generations of two settled objects as its own, is on
course. -/
theorem onCourse_start (hp : p.Sound) (hfailures : p.failures = []) {goal : Goal}
    {src dst : ResourceRef} {v w : Workload} (hgoal : goal.Feasible v.declared w.declared)
    (hsrc : p.object? src = some v) (hdst : p.object? dst = some w)
    (hv : v.status = v.settledStatus) (hw : w.status = w.settledStatus) (id : MigrationId)
    (pair : Pair) (started : Nat) :
    (start id src dst pair goal ⟨v.metadata.generation, w.metadata.generation⟩ started).OnCourse
      v.declared w.declared 0 p := by
  have htarget := hgoal.one_le_replicas
  have hsurge := hgoal.one_le_maxSurge
  refine ⟨⟨hp, hfailures, fun side => ?_, fun side u hu => ?_⟩, ?_, ?_, fun side u hu => ?_, ?_⟩
  · cases side with
    | src => exact Platform.declared?_eq_some_iff.2 ⟨v, hsrc, (Int.add_zero _).symm⟩
    | dst => exact Platform.declared?_eq_some_iff.2 ⟨w, hdst, (Int.add_zero _).symm⟩
  · cases side with
    | src =>
      obtain rfl : v = u := Option.some.inj (hsrc.symm.trans hu)
      exact le_refl _
    | dst =>
      obtain rfl : w = u := Option.some.inj (hdst.symm.trans hu)
      exact le_refl _
  · exact (Counters.undisturbed_zero (by omega : 0 ≤ goal.replicas)
      (by omega : 0 ≤ goal.maxSurge) v.declared).symm
  · rw [if_neg (by omega)]
    rfl
  · cases side with
    | src =>
      obtain rfl : v = u := Option.some.inj (hsrc.symm.trans hu)
      exact hv
    | dst =>
      obtain rfl : w = u := Option.some.inj (hdst.symm.trans hu)
      exact hw
  · exact fun hpos => absurd hpos (Nat.lt_irrefl 0)

/-- A round keeps a migration on course. -/
theorem OnCourse.round (h : m.OnCourse N D k p) (hgoal : m.goal.Feasible N D) (hne : m.src ≠ m.dst)
    (limit now : Nat) :
    (m.conclude now (m.pass Platform.client limit now p).1).OnCourse N D (k + 1)
      (m.pass Platform.client limit now p).2.settleAll.2 := by
  have hafter := h.toUnhindered.after_pass hne (h.balanced hgoal) limit now
  have hsettled := Platform.settled_settleAll hafter.sound
  have htarget := hgoal.one_le_replicas
  have hsurge := hgoal.one_le_maxSurge
  have hphase := h.phase_eq
  suffices hnext : (m.conclude now (m.pass Platform.client limit now p).1).counters =
        .undisturbed m.goal.replicas m.goal.maxSurge N (k + 1) ∧
      (m.conclude now (m.pass Platform.client limit now p).1).phase =
        if m.goal.replicas ≤ N ∧ 2 * cycles m.goal.replicas m.goal.maxSurge < k + 1 then .succeeded
        else .executing by
    rw [← m.goal_conclude now] at hnext
    exact ⟨hafter.settleAll, hnext.1, hnext.2, fun side => hsettled _, fun _ => hsettled⟩
  rcases h.pass_cases hgoal limit now with
    ⟨hN, hk, hpass⟩ | ⟨hN, hk, hpass⟩ |
    ⟨hnot, ⟨hpass, hstay⟩ | ⟨side, n, generation, hpass, hnext, -⟩⟩
  · -- after the end the counters have stopped too
    rw [if_pos ⟨hN, hk⟩] at hphase
    rw [hpass, Counters.undisturbed_succ_of_le (by omega) hsurge hk.le, if_pos ⟨hN, by omega⟩]
    exact ⟨h.counters_eq, hphase⟩
  · -- the pass that ends the migration moves nothing
    rw [if_neg (by omega), phase_eq_executing_iff, isTerminal_eq_false_iff] at hphase
    rw [hpass, Counters.undisturbed_succ_of_le (by omega) hsurge hk.le, if_pos ⟨hN, by omega⟩]
    refine ⟨h.counters_eq, ?_⟩
    show (m.finish ⟨true, "", now⟩).phase = .succeeded
    unfold finish phase
    rw [hphase]
    rfl
  · rw [if_neg (by omega)] at hphase
    rw [hpass, hstay, if_neg (by omega)]
    exact ⟨h.counters_eq, hphase⟩
  · rw [if_neg (by omega)] at hphase
    rw [hpass, hnext, if_neg (by omega)]
    refine ⟨rfl, ?_⟩
    cases side <;> exact hphase

/-- After all cycles and one more round, a pass changes nothing. -/
theorem OnCourse.pass_of_lt (h : m.OnCourse N D k p) (hgoal : m.goal.Feasible N D)
    (hk : 2 * cycles m.goal.replicas m.goal.maxSurge < k) (limit now : Nat) :
    m.pass Platform.client limit now p = (.unchanged, p) := by
  have htarget := hgoal.one_le_replicas
  rcases h.pass_cases hgoal limit now with
    ⟨-, -, hpass⟩ | ⟨-, hfull, -⟩ | ⟨-, ⟨hpass, -⟩ | ⟨side, n, generation, -, -, hmoved⟩⟩
  · exact hpass
  · omega
  · exact hpass
  · exact absurd (Counters.undisturbed_succ_of_le (by omega) hgoal.one_le_maxSurge hk.le) hmoved

/-- After all cycles the counters are where they stay. -/
theorem OnCourse.counters_of_le (h : m.OnCourse N D k p) (hgoal : m.goal.Feasible N D)
    (hk : 2 * cycles m.goal.replicas m.goal.maxSurge ≤ k) :
    m.counters =
      ⟨min m.goal.replicas (max N 0), min m.goal.replicas (max N 0 + m.goal.maxSurge)⟩ := by
  have htarget := hgoal.one_le_replicas
  rw [h.counters_eq, Counters.undisturbed_of_le (by omega) hgoal.one_le_maxSurge hk]

/-- After all cycles and one more round, a migration has succeeded just if the source could give the
target. -/
theorem OnCourse.phase_eq_succeeded_iff (h : m.OnCourse N D k p)
    (hk : 2 * cycles m.goal.replicas m.goal.maxSurge < k) :
    m.phase = .succeeded ↔ m.goal.replicas ≤ N := by
  rw [h.phase_eq]
  by_cases hN : m.goal.replicas ≤ N
  · simp [hN, hk]
  · simp [hN]

/-- Where the source can give the target, the pass after all cycles ends the migration. -/
theorem OnCourse.pass_of_eq (h : m.OnCourse N D k p) (hgoal : m.goal.Feasible N D)
    (hN : m.goal.replicas ≤ N) (hk : 2 * cycles m.goal.replicas m.goal.maxSurge = k)
    (limit now : Nat) : m.pass Platform.client limit now p = (.succeeded, p) := by
  rcases h.pass_cases hgoal limit now with ⟨-, hlt, -⟩ | ⟨-, -, hpass⟩ | ⟨hnot, -⟩
  · omega
  · exact hpass
  · exact absurd ⟨hN, hk.le⟩ hnot

/-- Where the source can give the target, every pass of a cycle writes. -/
theorem OnCourse.exists_landed_of_lt (h : m.OnCourse N D k p) (hgoal : m.goal.Feasible N D)
    (hN : m.goal.replicas ≤ N) (hk : k < 2 * cycles m.goal.replicas m.goal.maxSurge)
    (limit now : Nat) :
    ∃ side n generation,
      (m.pass Platform.client limit now p).1 = .landed side n generation := by
  have htarget := hgoal.one_le_replicas
  rcases h.pass_cases hgoal limit now with
    ⟨-, hlt, -⟩ | ⟨-, hfull, -⟩ | ⟨-, ⟨-, hstay⟩ | ⟨side, n, generation, hpass, -, -⟩⟩
  · omega
  · omega
  · exact absurd hstay (Counters.undisturbed_succ_ne (by omega) hgoal.one_le_maxSurge hN hk)
  · exact ⟨side, n, generation, hpass⟩

end Migration

/-! ## Runs -/

namespace Stage

variable {limit : Nat} {id : MigrationId} {times : Nat → Nat} {s : Stage} {m : Migration}
  {N D : Int} {k : Nat}

/-- The stage after a round: a pass over a migration, and then everything is settled. -/
def round (limit : Nat) (id : MigrationId) (now : Nat) (s : Stage) : Stage :=
  { s.pass limit id now with platform := (s.pass limit id now).platform.settleAll.2 }

/-- The stage after some rounds, each at its own time. -/
def rounds (limit : Nat) (id : MigrationId) (times : Nat → Nat) (s : Stage) : Nat → Stage
  | 0 => s
  | k + 1 => (s.rounds limit id times k).round limit id (times k)

theorem platform_round (limit : Nat) (id : MigrationId) (now : Nat) (s : Stage) :
    (s.round limit id now).platform = (s.pass limit id now).platform.settleAll.2 := by
  unfold round
  dsimp only

theorem rounds_succ (limit : Nat) (id : MigrationId) (times : Nat → Nat) (s : Stage) (k : Nat) :
    s.rounds limit id times (k + 1) = (s.rounds limit id times k).round limit id (times k) :=
  rfl

/-- The verdict of a pass over a migration, if that is known. -/
def verdict? (limit : Nat) (id : MigrationId) (now : Nat) (s : Stage) : Option Verdict :=
  (s.registry.get? id).map fun m => (m.pass Platform.client limit now s.platform).1

theorem verdict?_of_get? (hm : s.registry.get? id = some m) (limit now : Nat) :
    s.verdict? limit id now = some (m.pass Platform.client limit now s.platform).1 := by
  unfold verdict?
  rw [hm, Option.map_some]

/-- What undisturbed rounds preserve: the migration that was started is known and on course. -/
theorem exists_onCourse_rounds (hm : s.registry.get? id = some m) (hgoal : m.goal.Feasible N D)
    (hne : m.src ≠ m.dst) (hcourse : m.OnCourse N D 0 s.platform) (limit : Nat) (times : Nat → Nat)
    (k : Nat) :
    ∃ m', (s.rounds limit id times k).registry.get? id = some m' ∧ m'.src = m.src ∧
      m'.dst = m.dst ∧ m'.goal = m.goal ∧
      m'.OnCourse N D k (s.rounds limit id times k).platform := by
  induction k with
  | zero => exact ⟨m, hm, rfl, rfl, rfl, hcourse⟩
  | succ k ih =>
    obtain ⟨m', hm', hsrc, hdst, hgoal', hcourse'⟩ := ih
    obtain ⟨hregistry, hplatform⟩ := pass_of_get? limit hm' (times k)
    have hfeasible : m'.goal.Feasible N D := by rwa [hgoal']
    have hround := hcourse'.round hfeasible (by rwa [hsrc, hdst]) limit (times k)
    rw [← hplatform] at hround
    refine ⟨_, hregistry, ?_, ?_, ?_, ?_⟩
    · rw [Migration.src_conclude, hsrc]
    · rw [Migration.dst_conclude, hdst]
    · rw [Migration.goal_conclude, hgoal']
    · rw [rounds_succ, platform_round]
      exact hround

/-- A pass that has found nothing to do on a settled platform is a round that changes nothing. -/
theorem round_of_pass_unchanged (hm : s.registry.get? id = some m) {now : Nat}
    (hpass : m.pass Platform.client limit now s.platform = (.unchanged, s.platform))
    (hsettled : s.platform.Settled) : s.round limit id now = s := by
  unfold round pass
  rw [Registry.reconcile_of_pass_unchanged hm hpass]
  dsimp only
  rw [Platform.settleAll_of_settled hsettled]

/-- Rounds after all cycles and one more change nothing. -/
theorem rounds_eq_of_lt (hm : s.registry.get? id = some m) (hgoal : m.goal.Feasible N D)
    (hne : m.src ≠ m.dst) (hcourse : m.OnCourse N D 0 s.platform) (limit : Nat) (times : Nat → Nat)
    {full : Nat} (hfull : 2 * cycles m.goal.replicas m.goal.maxSurge = full) (hk : full < k) :
    s.rounds limit id times k = s.rounds limit id times (full + 1) := by
  subst hfull
  induction k, hk using Nat.le_induction with
  | base => rfl
  | succ k hk ih =>
    -- the platform is settled since the first round, so settling it once more does nothing either
    obtain ⟨m', hm', -, -, hgoal', hcourse'⟩ :=
      exists_onCourse_rounds hm hgoal hne hcourse limit times k
    have hpass := hcourse'.pass_of_lt (by rwa [hgoal']) (by rwa [hgoal']) limit (times k)
    rw [rounds_succ, round_of_pass_unchanged hm' hpass (hcourse'.all_settled (by omega)), ih]

/-- Start with a migration without a timeout, as it is submitted, on two settled objects, and let
rounds follow, in which nothing but its passes changes the objects. After all cycles and one more
round nothing changes any more. What has moved then is the target, as far as the source has replicas
for it, and the declared counts tell so. If the source has enough, every round of the cycles writes,
the next one ends the migration, and it has succeeded. If not, the migration executes forever. -/
theorem undisturbed_rounds {limit capacity : Nat} {before : List Platform.Operation}
    {g : Registry} {id : MigrationId} {src dst : ResourceRef} {pair : Pair} {goal : Goal}
    {started : Nat} {v w : Workload}
    (hstart : g.get? id = some (.start id src dst pair goal
      ⟨v.metadata.generation, w.metadata.generation⟩ started))
    (hne : src ≠ dst) (htimeout : goal.timeout = none) (htarget : 1 ≤ goal.replicas)
    (hsurge : 1 ≤ goal.maxSurge)
    (hfailures : ((Platform.empty capacity).after before).failures = [])
    (hsrc : ((Platform.empty capacity).after before).object? src = some v)
    (hdst : ((Platform.empty capacity).after before).object? dst = some w)
    (hv : v.status = v.settledStatus) (hw : w.status = w.settledStatus)
    (hN : inReplicaRange v.declared = true) (hD : inReplicaRange w.declared = true)
    (hrange : inReplicaRange (w.declared + goal.replicas) = true) (times : Nat → Nat) :
    let run := rounds limit id times ⟨g, (Platform.empty capacity).after before⟩
    let full := 2 * cycles goal.replicas goal.maxSurge
    let moved : Counters := ⟨min goal.replicas (max v.declared 0),
      min goal.replicas (max v.declared 0 + goal.maxSurge)⟩
    (∀ k, full < k → run k = run (full + 1)) ∧
      (∃ m, (run (full + 1)).registry.get? id = some m ∧ m.counters = moved ∧
        (m.phase = .succeeded ↔ goal.replicas ≤ v.declared)) ∧
      (run (full + 1)).platform.declared? src = some (v.declared - moved.src) ∧
      (run (full + 1)).platform.declared? dst = some (w.declared + moved.dst) ∧
      (goal.replicas ≤ v.declared →
        (∀ k, k < full → ∃ side n generation,
          (run k).verdict? limit id (times k) = some (.landed side n generation)) ∧
        (run full).verdict? limit id (times full) = some .succeeded) ∧
      (v.declared < goal.replicas →
        ∀ k, ∃ m, (run k).registry.get? id = some m ∧ m.phase = .executing) := by
  intro run full moved
  have hgoal : goal.Feasible v.declared w.declared :=
    ⟨htimeout, htarget, hsurge, hN, hD, hrange⟩
  have hfirst := Migration.onCourse_start (Platform.sound_after capacity before) hfailures hgoal
    hsrc hdst hv hw id pair started
  have hrun (k : Nat) : ∃ m, (run k).registry.get? id = some m ∧ m.src = src ∧ m.dst = dst ∧
      m.goal = goal ∧ m.OnCourse v.declared w.declared k (run k).platform :=
    exists_onCourse_rounds (s := ⟨g, (Platform.empty capacity).after before⟩) hstart hgoal hne
      hfirst limit times k
  have hrest (k : Nat) (hk : full < k) : run k = run (full + 1) :=
    rounds_eq_of_lt (s := ⟨g, (Platform.empty capacity).after before⟩) hstart hgoal hne hfirst limit
      times rfl hk
  refine ⟨hrest, ?_, ?_, ?_, fun hle => ⟨fun k hk => ?_, ?_⟩, fun hlt k => ?_⟩
  · obtain ⟨m, hm, rfl, rfl, rfl, hcourse⟩ := hrun (full + 1)
    exact ⟨m, hm, hcourse.counters_of_le hgoal (Nat.le_succ full),
      hcourse.phase_eq_succeeded_iff (Nat.lt_succ_self full)⟩
  · obtain ⟨m, hm, rfl, rfl, rfl, hcourse⟩ := hrun (full + 1)
    have hdeclared := hcourse.accounts .src
    rw [hcourse.counters_of_le hgoal (Nat.le_succ full)] at hdeclared
    rw [Int.sub_eq_add_neg]
    exact hdeclared
  · obtain ⟨m, hm, rfl, rfl, rfl, hcourse⟩ := hrun (full + 1)
    have hdeclared := hcourse.accounts .dst
    rw [hcourse.counters_of_le hgoal (Nat.le_succ full)] at hdeclared
    exact hdeclared
  · obtain ⟨m, hm, rfl, rfl, rfl, hcourse⟩ := hrun k
    rw [verdict?_of_get? hm]
    obtain ⟨side, n, generation, hpass⟩ :=
      hcourse.exists_landed_of_lt hgoal hle hk limit (times k)
    exact ⟨side, n, generation, congrArg some hpass⟩
  · obtain ⟨m, hm, rfl, rfl, rfl, hcourse⟩ := hrun full
    rw [verdict?_of_get? hm, hcourse.pass_of_eq hgoal hle rfl]
  · obtain ⟨m, hm, rfl, rfl, rfl, hcourse⟩ := hrun k
    refine ⟨m, hm, ?_⟩
    rw [hcourse.phase_eq, if_neg fun hdone => absurd hdone.1 (not_le.2 hlt)]

/-- Three replicas, at most two at once: the destination is given two, the source is relieved of
them, and the same again with the third; then a fifth pass ends the migration. -/
theorem undisturbed_rounds_two_of_three :
    let web : ResourceRef := .of .deployment "default" "web"
    let webCs : ResourceRef := .of .cloneSet "default" "web-cs"
    let before : List Platform.Operation :=
      [.put ((Workload.named .deployment "default" "web").withReplicas (some 3)),
        .put (Workload.named .cloneSet "default" "web-cs"), .settleAll]
    let m : Migration := .start ⟨7⟩ web webCs .deploymentToCloneSet ⟨3, 2, none⟩ ⟨1, 1⟩ 0
    let start : Stage := ⟨Registry.empty.register m, (Platform.empty 4).after before⟩
    let run := rounds 5 ⟨7⟩ (fun k => 10 * k) start
    (∀ k, 4 < k → run k = run 5) ∧
      (∃ m, (run 5).registry.get? ⟨7⟩ = some m ∧ m.counters = ⟨3, 3⟩ ∧ m.phase = .succeeded) ∧
      (run 5).platform.declared? web = some 0 ∧ (run 5).platform.declared? webCs = some 3 ∧
      (∀ k, k < 4 → ∃ side n generation,
        (run k).verdict? 5 ⟨7⟩ (10 * k) = some (.landed side n generation)) ∧
      (run 4).verdict? 5 ⟨7⟩ 40 = some .succeeded := by
  intro web webCs before m start run
  let v := (((Workload.named .deployment "default" "web").withReplicas (some 3)).stamped 1
    3).withStatus ⟨1, 3, 3⟩
  let w := ((Workload.named .cloneSet "default" "web-cs").stamped 1 4).withStatus ⟨1, 0, 0⟩
  have hm : (Registry.empty.register m).get? ⟨7⟩ = some m := rfl
  have hfailures : ((Platform.empty 4).after before).failures = [] := by decide +kernel
  have hsrc : ((Platform.empty 4).after before).object? web = some v := by decide +kernel
  have hdst : ((Platform.empty 4).after before).object? webCs = some w := by decide +kernel
  have hne : web ≠ webCs := by decide
  obtain ⟨hrest, ⟨m', hm', hcounters, hphase⟩, hweb, hwebCs, hpasses, -⟩ :=
    undisturbed_rounds hm hne rfl (by decide) (by decide) hfailures hsrc hdst rfl rfl (by decide)
      (by decide) (by decide) (fun k => 10 * k)
  obtain ⟨hwrites, hends⟩ := hpasses (by decide)
  exact ⟨hrest, ⟨m', hm', hcounters, hphase.2 (by decide)⟩, hweb, hwebCs, hwrites, hends⟩

end Stage

end Handover
