import Handover.Proofs.Corridor
import Handover.Proofs.Plan.Undisturbed
import Handover.Proofs.Platform.Settled

/-!
# Passes that nothing hinders

A migration is `Unhindered` if no update is about to fail, its counters account for the declared
counts, and its own writes are not ahead of its two objects. Passes and settling keep it so. On
settled objects nothing holds up a pass over such a migration: both objects are current, what it
observes is what the counters forecast, the planned move is in range, and the update is accepted. So
the counters go where the plan leads (`Migration.Unhindered.pass_cases`).
-/

namespace Handover

/-! ## Updates that are accepted -/

namespace Platform

variable {p : Platform} {w : Workload} {side : Side} {n : Int}

/-- Without failures to come, an update meets none and leaves none. -/
theorem failures_update (h : p.failures = []) (w : Workload) : (p.update w).2.failures = [] := by
  rw [update_eq, h]
  cases p.object? w.ref with
  | none => exact h
  | some current =>
    dsimp only
    split
    · exact h
    · exact h

/-- Without failures to come, moving the replica count of an object as it is gets accepted. -/
theorem update_moved_of_failures_eq_nil (h : p.failures = []) (hn : 0 < n)
    (hw : p.object? w.ref = some w) :
    p.update (w.moved side n) =
      (.ok ((w.moved side n).stamped w.nextGeneration p.nextVersion),
        p.store .modified
          ((w.moved side n).stamped w.nextGeneration p.nextVersion)) := by
  have hversion : (w.moved side n).metadata = w.metadata := rfl
  rw [update_eq, h, Workload.ref_moved, hw]
  dsimp only
  rw [hversion, if_neg (Decidable.not_not.2 rfl), p.revision_moved w hn]

end Platform

/-- A goal that can be pursued, in any time, from objects that declare `N` and `D` replicas: all
counts on the way are in range. -/
structure Goal.Feasible (goal : Goal) (N D : Int) : Prop where
  timeout_eq : goal.timeout = none
  one_le_replicas : 1 ≤ goal.replicas
  one_le_maxSurge : 1 ≤ goal.maxSurge
  inRange_src : inReplicaRange N = true
  inRange_dst : inReplicaRange D = true
  inRange_target : inReplicaRange (D + goal.replicas) = true

/-- No step leads out of the range: the source has the replicas that it is relieved of, and the
destination never gets more than the target. -/
theorem Goal.Feasible.inRange_of_plan {goal : Goal} {N D n : Int} (h : goal.Feasible N D)
    {c : Counters} (hbalanced : c.Balanced goal.replicas goal.maxSurge) {side : Side}
    (hplan : plan goal.replicas goal.maxSurge c (c.forecast N D) = side.step n) :
    inReplicaRange (side.pick N D + side.change (c.count side) + side.change n) = true := by
  obtain ⟨-, -, -, hN, hD, htarget⟩ := h
  obtain ⟨hsrc, hle, hdst, -⟩ := hbalanced
  unfold inReplicaRange at *
  rw [IntRange.contains_iff] at *
  cases side with
  | src =>
    obtain ⟨hpos, hdeclared, -⟩ := of_plan_eq_scaleIn hplan
    simp only [Counters.forecast] at hdeclared
    simp only [Side.pick, Side.change, Counters.count, IntRange.signed32] at *
    omega
  | dst =>
    obtain ⟨hpos, hroom, -⟩ := of_plan_eq_scaleOut hplan
    simp only [Side.pick, Side.change, Counters.count, IntRange.signed32] at *
    omega

namespace Migration

variable {m : Migration} {p : Platform} {N D : Int} {v : Verdict}

/-! ## Nothing in the way -/

/-- Nothing stands in the way of a migration: no update is about to fail, its counters account for
the declared counts, and both objects are as recent as its own writes. -/
structure Unhindered (m : Migration) (N D : Int) (p : Platform) : Prop where
  sound : p.Sound
  failures_eq : p.failures = []
  accounts : m.Accounts N D p
  recent : ∀ side w, p.object? (m.refOf side) = some w →
    side.pick m.generations.src m.generations.dst ≤ w.metadata.generation

/-- Settling puts nothing in the way. -/
theorem Unhindered.settleAll (h : m.Unhindered N D p) : m.Unhindered N D p.settleAll.2 := by
  have hsettling := Platform.settling_settleAll h.sound
  refine ⟨(Platform.evolves_settleKinds p _).sound h.sound,
    hsettling.failures_eq.trans h.failures_eq, fun side => ?_, fun side w hw => ?_⟩
  · have hdeclared := Platform.declared?_of_reports h.sound .settleAll trivial (m.refOf side)
    exact hdeclared.trans (h.accounts side)
  · obtain ⟨u, hu, hgeneration, -⟩ := hsettling.origin _ w hw
    rw [hgeneration]
    exact h.recent side u hu

/-- Without failures to come, none comes with a pass. -/
theorem failures_pass (h : p.failures = []) (limit now : Nat) (m : Migration) :
    (m.pass Platform.client limit now p).2.failures = [] := by
  rw [pass_client]
  rcases pass_reading_cases p.get limit now m p with
    ⟨v, -, hpass⟩ | ⟨src, dst, side, n, -, -, -, -, hpass⟩
  · rw [hpass]
    exact h
  · rw [hpass, move_reading_snd]
    exact Platform.failures_update h _

/-- Unless a write landed, the recorded generations stay. -/
theorem generations_conclude_of_not_isLanded (hv : v.isLanded = false) (m : Migration) (now : Nat) :
    (m.conclude now v).generations = m.generations := by
  cases v with
  | landed side n generation => cases hv
  | failed cause => cases cause <;> rfl
  | unchanged => rfl
  | succeeded => rfl
  | refused e => rfl

/-- A write that landed has its generation recorded. -/
theorem generations_conclude_landed (m : Migration) (now : Nat) (side : Side) (n generation : Int) :
    (m.conclude now (.landed side n generation)).generations =
      m.generations.record side generation := by
  cases side <;> rfl

/-- A pass puts nothing in the way of later ones. -/
theorem Unhindered.after_pass (h : m.Unhindered N D p) (hne : m.src ≠ m.dst)
    (hbalanced : m.counters.Balanced m.goal.replicas m.goal.maxSurge) (limit now : Nat) :
    (m.conclude now (m.pass Platform.client limit now p).1).Unhindered N D
      (m.pass Platform.client limit now p).2 := by
  refine ⟨?_, failures_pass h.failures_eq limit now m,
    h.accounts.after_pass h.sound hne hbalanced limit now, fun side w hw => ?_⟩
  · rw [pass_client]
    exact (evolves_pass_reading p.get limit now m p).sound h.sound
  · rw [refOf_conclude, pass_client] at hw
    rw [pass_client]
    rcases pass_held_cases (Platform.held_of_get h.sound) limit now m with
      ⟨hobjects, hverdict⟩ | ⟨src, dst, written, n, -, -, -, -, -, href, -, hpass⟩
    · rw [generations_conclude_of_not_isLanded hverdict]
      refine h.recent side w ?_
      unfold Platform.object? at hw ⊢
      rwa [hobjects] at hw
    · rw [hpass, Platform.object?_store, Workload.ref_stamped, Workload.ref_moved, href] at hw
      rw [hpass, generations_conclude_landed]
      by_cases hside : side = written
      · -- the generation that was recorded is the one that was stored
        subst hside
        rw [if_pos rfl] at hw
        cases hw
        cases side <;> exact le_refl _
      · rw [if_neg fun hrefs => hside ((refOf_inj hne).1 hrefs)] at hw
        have hrecent := h.recent side w hw
        cases side <;> cases written <;> first | exact absurd rfl hside | exact hrecent

/-! ## What a pass does -/

/-- On settled objects with nothing in the way, a pass finds both objects current and observes what
the counters forecast. -/
theorem Unhindered.exists_objects (h : m.Unhindered N D p)
    (hsettled : ∀ side, p.SettledAt (m.refOf side)) :
    ∃ src dst, p.object? m.src = some src ∧ p.object? m.dst = some dst ∧
      m.isCurrent src dst = true ∧ observe src dst = m.counters.forecast N D := by
  obtain ⟨src, hsrc, hsrc_declared⟩ := Platform.declared?_eq_some_iff.1 (h.accounts .src)
  obtain ⟨dst, hdst, hdst_declared⟩ := Platform.declared?_eq_some_iff.1 (h.accounts .dst)
  have hsrc_status : src.status = src.settledStatus := hsettled .src src hsrc
  have hdst_status : dst.status = dst.settledStatus := hsettled .dst dst hdst
  refine ⟨src, dst, hsrc, hdst, decide_eq_true ⟨h.recent .src src hsrc, h.recent .dst dst hdst,
    ?_, ?_⟩, ?_⟩
  · unfold Workload.isObserved
    rw [hsrc_status]
    exact decide_eq_true rfl
  · unfold Workload.isObserved
    rw [hdst_status]
    exact decide_eq_true rfl
  · unfold observe Counters.forecast
    rw [hdst_status, hsrc_declared, Int.sub_eq_add_neg]
    show (⟨_, dst.declared, dst.declared⟩ : Observation) = _
    rw [hdst_declared]
    rfl

/-- What is intended for two current objects whose counts are as forecast: to wait, if the plan
leaves the counters, else the planned move. -/
theorem intent_cases {src dst : Workload} (hcurrent : m.isCurrent src dst = true)
    (hobserve : observe src dst = m.counters.forecast N D) (hgoal : m.goal.Feasible N D)
    (hbalanced : m.counters.Balanced m.goal.replicas m.goal.maxSurge)
    (hcomplete : m.isComplete = false) :
    let next := m.counters.next m.goal.replicas m.goal.maxSurge N D
    (m.intent src dst = .settle .unchanged ∧ next = m.counters) ∨
      ∃ side n, m.intent src dst = .write side n ∧ next = m.counters.after (side.step n) := by
  intro next
  have hmove : ∀ (side : Side) (n : Int),
      plan m.goal.replicas m.goal.maxSurge m.counters (m.counters.forecast N D) = side.step n →
      m.intent src dst = .write side n ∧ next = m.counters.after (side.step n) := by
    intro side n hplan
    have hdeclared : (side.pick src dst).declared =
        side.pick N D + side.change (m.counters.count side) := by
      cases side with
      | src => exact (congrArg Observation.srcDeclared hobserve).trans Int.sub_eq_add_neg
      | dst => exact congrArg Observation.dstDeclared hobserve
    refine ⟨intent_eq_write_iff.2 ⟨hcurrent, hobserve ▸ hplan, ?_⟩,
      congrArg m.counters.after hplan⟩
    rw [hdeclared]
    exact hgoal.inRange_of_plan hbalanced hplan
  cases hplan : plan m.goal.replicas m.goal.maxSurge m.counters (m.counters.forecast N D) with
  | complete =>
    -- balanced counters at the target are the target
    obtain ⟨hsrc, hdst⟩ := of_plan_eq_complete hplan
    obtain ⟨-, hle, htarget, -⟩ := hbalanced
    have htarget : m.counters = ⟨m.goal.replicas, m.goal.replicas⟩ := by
      show (⟨m.counters.src, m.counters.dst⟩ : Counters) = _
      rw [Counters.mk.injEq]
      omega
    exact absurd (decide_eq_true htarget) (Bool.eq_false_iff.1 hcomplete)
  | wait reason =>
    refine .inl ⟨?_, congrArg m.counters.after hplan⟩
    unfold intent
    rw [if_pos hcurrent, hobserve, hplan]
  | scaleOut n => exact .inr ⟨.dst, n, hmove .dst n hplan⟩
  | scaleIn n => exact .inr ⟨.src, n, hmove .src n hplan⟩

/-- On settled objects with nothing in the way, a pass over an executing migration that is not
complete waits, if the plan leaves the counters, or takes the planned step. -/
theorem Unhindered.pass_cases (h : m.Unhindered N D p)
    (hsettled : ∀ side, p.SettledAt (m.refOf side)) (hgoal : m.goal.Feasible N D)
    (hbalanced : m.counters.Balanced m.goal.replicas m.goal.maxSurge)
    (hexecuting : m.isTerminal = false) (hcomplete : m.isComplete = false) (limit now : Nat) :
    let next := m.counters.next m.goal.replicas m.goal.maxSurge N D
    (m.pass Platform.client limit now p = (.unchanged, p) ∧ next = m.counters) ∨
      ∃ side n generation,
        (m.pass Platform.client limit now p).1 = .landed side n generation ∧
        (m.conclude now (.landed side n generation)).counters = next ∧ next ≠ m.counters := by
  intro next
  obtain ⟨src, dst, hsrc, hdst, hcurrent, hobserve⟩ := h.exists_objects hsettled
  have hopen : m.isOpen now = true := by
    unfold isOpen timedOut
    rw [hexecuting, hcomplete, hgoal.timeout_eq]
    rfl
  have hpass := pass_reading_of_ok hopen (Platform.get_of_object? hsrc)
    (Platform.get_of_object? hdst) limit p
  rw [← pass_client] at hpass
  rcases intent_cases hcurrent hobserve hgoal hbalanced hcomplete with
    ⟨hintent, hstay⟩ | ⟨side, n, hintent, (hnext : next = _)⟩
  · rw [hpass, hintent]
    exact .inl ⟨rfl, hstay⟩
  · have hpos : 0 < n := Side.pos_of_plan_eq (intent_eq_write_iff.1 hintent).2.1
    have hstored : p.object? (side.pick src dst).ref = some (side.pick src dst) := by
      cases side with
      | src => exact h.sound.ref_eq m.src src hsrc ▸ hsrc
      | dst => exact h.sound.ref_eq m.dst dst hdst ▸ hdst
    have hupdate : (Platform.clientReading p.get).update ((side.pick src dst).moved side n) p = _ :=
      Platform.update_moved_of_failures_eq_nil h.failures_eq hpos hstored
    rw [hintent] at hpass
    dsimp only at hpass
    rw [move_eq, hupdate] at hpass
    refine .inr ⟨side, n, _, congrArg Prod.fst hpass, ?_, ?_⟩
    · rw [counters_conclude_landed hbalanced.within hintent]
      exact hnext.symm
    · -- the counter of the side that was written has grown
      intro hstay
      have hcount := m.counters.count_after_step side side n
      rw [if_pos rfl, ← hnext, hstay] at hcount
      omega

end Migration

end Handover
