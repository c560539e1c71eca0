import Handover.Proofs.Finality
import Handover.Proofs.Pass.Effect
import Handover.Proofs.Pass.Guarded
import Handover.Proofs.Plan.Greatest
import Handover.Proofs.Platform.Reading

/-!
# Passes stay in range

A pass guards the replica count that it is about to write. The guard before taking replicas from the
source never stops a pass, since no more is taken than is there. The guard before giving replicas to
the destination stops those passes that would lead beyond the range, and no others
(`Migration.pass_eq_scaleOutOfRange_iff`). A migration is tested twice for being complete, and on
balanced counters the test in the plan finds nothing that the first one has not found. Over any
sequence of passes these facts and those about unguarded counting hold together
(`Registry.passes_count_in_range`).
-/

namespace Handover

/-! ## The guards of a pass -/

/-- Whether the counts of two objects fit, as a client in some state answers to reads of them. -/
def Client.ReadsInRange {σ : Type} (client : Client σ) (src dst : ResourceRef) (s : σ) : Prop :=
  ∀ v t w u, client.get src s = (.ok v, t) → client.get dst t = (.ok w, u) →
    (Migration.observe v w).InRange

/-- A platform answers reads with counts that fit if those of all its objects do. -/
theorem Platform.readsInRange_client {p : Platform}
    (h : ∀ w ∈ p.objects.values, inReplicaRange w.declared = true ∧
      inReplicaRange w.status.availableReplicas = true) (src dst : ResourceRef) :
    Platform.client.ReadsInRange src dst p := by
  intro v t w u hsrc hdst
  obtain ⟨hv, rfl⟩ := Prod.mk.inj hsrc
  obtain ⟨hw, rfl⟩ := Prod.mk.inj hdst
  have hmem {r : ResourceRef} {w : Workload} (hget : p.get r = .ok w) : w ∈ p.objects.values :=
    List.mem_map_of_mem (Table.get?_eq_some_iff.1 (object?_of_get hget))
  exact ⟨(h v (hmem hv)).1, (h w (hmem hw)).1, (h w (hmem hw)).2⟩

/-- Of two texts that begin the same text, one begins the other. -/
theorem prefix_or_prefix_of_append_eq {a b x y : String} (h : a ++ x = b ++ y) :
    a.toList <+: b.toList ∨ b.toList <+: a.toList := by
  have hlist : a.toList ++ x.toList = b.toList ++ y.toList := by
    rw [← String.toList_append, h, String.toList_append]
  exact List.prefix_or_prefix_of_prefix (List.prefix_append _ _)
    (hlist ▸ List.prefix_append b.toList y.toList)

/-- Of two texts that end the same text, one ends the other. -/
theorem suffix_or_suffix_of_append_eq {a b x y : String} (h : x ++ a = y ++ b) :
    a.toList <:+ b.toList ∨ b.toList <:+ a.toList := by
  have hlist : x.toList ++ a.toList = y.toList ++ b.toList := by
    rw [← String.toList_append, h, String.toList_append]
  exact List.suffix_or_suffix_of_suffix (List.suffix_append _ _)
    (hlist ▸ List.suffix_append y.toList b.toList)

/-- No other cause of failure reads like a refusal to take replicas from the source. -/
theorem FailureCause.of_message_eq_scaleIn {cause : FailureCause} {r : ResourceRef} {n : Int}
    (h : cause.message = (scaleInOfRange r n).message) :
    ∃ r' n', cause = .scaleInOfRange r' n' := by
  unfold message at h
  cases cause with
  | scaleInOfRange r' n' => exact ⟨r', n', rfl⟩
  | timedOut milliseconds =>
    simp only [String.append_assoc] at h
    exact absurd (prefix_or_prefix_of_append_eq h) (by decide)
  | scaleOutOfRange r' n' =>
    simp only [String.append_assoc] at h
    exact absurd (prefix_or_prefix_of_append_eq h) (by decide)
  | exhausted attempt e =>
    simp only [String.append_assoc] at h
    exact absurd (prefix_or_prefix_of_append_eq h) (by decide)
  | platform e =>
    unfold PlatformError.message at h
    cases e with
    | notFound ref => exact absurd (suffix_or_suffix_of_append_eq h) (by decide)
    | alreadyExists ref => exact absurd (suffix_or_suffix_of_append_eq h) (by decide)
    | conflict ref expected actual => exact absurd (suffix_or_suffix_of_append_eq h) (by decide)
    | invalid reason =>
      simp only [String.append_assoc] at h
      exact absurd (prefix_or_prefix_of_append_eq h) (by decide)
    | unavailable reason =>
      simp only [String.append_assoc] at h
      exact absurd (prefix_or_prefix_of_append_eq h) (by decide)

/-- The refusal to move an amount on a side because the new count would be out of range. -/
def FailureCause.outOfRange : Side → ResourceRef → Int → FailureCause
  | .src => scaleInOfRange
  | .dst => scaleOutOfRange

namespace Migration

variable {σ : Type} {client : Client σ} {limit now : Nat} {m : Migration} {s : σ} {side : Side}
  {r : ResourceRef} {n : Int} {src dst : Workload}

/-- Whether a pass comes to plan, and does so from these two objects. -/
def PlansFrom (client : Client σ) (now : Nat) (m : Migration) (s : σ) (src dst : Workload) : Prop :=
  m.isOpen now = true ∧ (m.readBoth client s).1 = .ok (src, dst) ∧ m.isCurrent src dst = true

/-- A pass plans from the two objects that it reads. -/
theorem PlansFrom.inRange (hreads : client.ReadsInRange m.src m.dst s)
    (h : m.PlansFrom client now s src dst) : (observe src dst).InRange := by
  obtain ⟨-, hread, -⟩ := h
  unfold readBoth at hread
  rcases hsrc : client.get m.src s with ⟨e | v, t⟩
  · simp [hsrc] at hread
  rcases hdst : client.get m.dst t with ⟨e | w, u⟩
  · simp [hsrc, hdst] at hread
  simp only [hsrc, hdst, Except.ok.injEq, Prod.mk.injEq] at hread
  obtain ⟨rfl, rfl⟩ := hread
  exact hreads v t w u hsrc hdst

/-- A planned move of current objects is written if the new count is in range, and refused if it is
not. -/
theorem intent_of_plan (hcurrent : m.isCurrent src dst = true)
    (hplan : plan m.goal.replicas m.goal.maxSurge m.counters (observe src dst) = side.step n) :
    m.intent src dst =
      if inReplicaRange ((side.pick src dst).declared + side.change n) then .write side n
      else .settle (.failed (.outOfRange side (m.refOf side) n)) := by
  unfold intent
  rw [if_pos hcurrent, hplan]
  cases side <;> rfl

/-- A move is refused just if it is planned from current objects and leads out of the range. -/
theorem intent_eq_outOfRange_iff :
    m.intent src dst = .settle (.failed (.outOfRange side r n)) ↔
      r = m.refOf side ∧ m.isCurrent src dst = true ∧
      plan m.goal.replicas m.goal.maxSurge m.counters (observe src dst) = side.step n ∧
      inReplicaRange ((side.pick src dst).declared + side.change n) = false := by
  constructor
  · intro h
    have hcurrent : m.isCurrent src dst = true := by
      by_contra hnot
      simp [intent, hnot] at h
    obtain ⟨other, k, hplan⟩ : ∃ (other : Side) (k : Int),
        plan m.goal.replicas m.goal.maxSurge m.counters (observe src dst) = other.step k := by
      cases hplan : plan m.goal.replicas m.goal.maxSurge m.counters (observe src dst) with
      | complete => simp [intent, hcurrent, hplan] at h
      | wait reason => simp [intent, hcurrent, hplan] at h
      | scaleOut k => exact ⟨.dst, k, rfl⟩
      | scaleIn k => exact ⟨.src, k, rfl⟩
    rw [intent_of_plan hcurrent hplan] at h
    split at h
    · cases h
    · next hrange =>
      rw [Bool.not_eq_true] at hrange
      -- the causes of the two sides differ, so that the refused move is the planned one
      cases side <;> cases other <;> cases h <;> exact ⟨rfl, hcurrent, hplan, hrange⟩
  · rintro ⟨rfl, hcurrent, hplan, hrange⟩
    rw [intent_of_plan hcurrent hplan, hrange]
    rfl

/-- A pass over a migration that is not open refuses no move. -/
theorem pass_ne_outOfRange (h : m.isOpen now = false) :
    (m.pass client limit now s).1 ≠ .failed (.outOfRange side r n) := by
  unfold pass
  split
  · nofun
  split
  · nofun
  split
  · cases side <;> nofun
  -- with none of the three reasons the migration would be open
  simp_all [isOpen]

/-- What comes of a write is no refusal to make it. -/
theorem move_ne_outOfRange (side : Side) {other : Side} {k : Int} {object : Workload} :
    (m.move client limit other k object s).1 ≠ .failed (.outOfRange side r n) := by
  rcases move_cases client limit m other k object s with ⟨written, t, -, hmove⟩ | ⟨e, t, -, hmove⟩
  · rw [hmove]
    nofun
  · rw [hmove]
    unfold onWriteError
    split
    · dsimp only
      split
      · cases side <;> nofun
      · nofun
    · cases side <;> nofun

/-- The verdict that a move is refused comes from a plan, and from nothing else. -/
theorem pass_eq_outOfRange_iff :
    (m.pass client limit now s).1 = .failed (.outOfRange side r n) ↔
      r = m.refOf side ∧ ∃ src dst, m.PlansFrom client now s src dst ∧
        plan m.goal.replicas m.goal.maxSurge m.counters (observe src dst) = side.step n ∧
        inReplicaRange ((side.pick src dst).declared + side.change n) = false := by
  cases hopen : m.isOpen now with
  | false =>
    refine iff_of_false (pass_ne_outOfRange hopen) ?_
    rintro ⟨-, src, dst, ⟨hopen', -⟩, -⟩
    rw [hopen] at hopen'
    cases hopen'
  | true =>
    rw [pass_of_isOpen hopen]
    unfold PlansFrom
    rcases hread : m.readBoth client s with ⟨e | ⟨src, dst⟩, t⟩
    · cases side <;> simp [FailureCause.outOfRange]
    dsimp only
    -- the verdict is the refusal just if the intent is
    have hverdict : (m.proceed client limit src dst t).1 = .failed (.outOfRange side r n) ↔
        m.intent src dst = .settle (.failed (.outOfRange side r n)) := by
      rw [proceed_eq]
      cases m.intent src dst with
      | settle v => simp
      | write other k => exact iff_of_false (move_ne_outOfRange side) nofun
    rw [hverdict, intent_eq_outOfRange_iff]
    simp only [hopen, Except.ok.injEq, Prod.mk.injEq, true_and]
    constructor
    · rintro ⟨hr, hcurrent, hplan, hrange⟩
      exact ⟨hr, src, dst, ⟨⟨rfl, rfl⟩, hcurrent⟩, hplan, hrange⟩
    · rintro ⟨hr, src', dst', ⟨⟨rfl, rfl⟩, hcurrent⟩, hplan, hrange⟩
      exact ⟨hr, hcurrent, hplan, hrange⟩

/-- What is taken from the source is there, so that no less than nothing remains. -/
theorem PlansFrom.inRange_of_scaleIn (hreads : client.ReadsInRange m.src m.dst s)
    (h : m.PlansFrom client now s src dst)
    (hplan : plan m.goal.replicas m.goal.maxSurge m.counters (observe src dst) = .scaleIn n) :
    inReplicaRange (src.declared - n) = true := by
  obtain ⟨hpos, hthere, -⟩ := of_plan_eq_scaleIn hplan
  have hdeclared := inReplicaRange_iff.1 (h.inRange hreads).srcDeclared
  simp only [observe] at hthere hdeclared
  exact inReplicaRange_iff.2 (by omega)

/-- No pass refuses to take replicas from the source. -/
theorem pass_ne_scaleInOfRange (hreads : client.ReadsInRange m.src m.dst s) :
    (m.pass client limit now s).1 ≠ .failed (.scaleInOfRange r n) := by
  intro h
  have hcause : FailureCause.outOfRange .src r n = .scaleInOfRange r n := rfl
  rw [← hcause, pass_eq_outOfRange_iff] at h
  obtain ⟨-, src, dst, hplans, hplan, hrange⟩ := h
  have hfits := hplans.inRange_of_scaleIn hreads hplan
  rw [Int.sub_eq_add_neg] at hfits
  exact Bool.false_ne_true (hrange.symm.trans hfits)

/-- A pass refuses to give the destination replicas just if it has planned to, and the new count
would be beyond the range. -/
theorem pass_eq_scaleOutOfRange_iff (hreads : client.ReadsInRange m.src m.dst s) :
    (m.pass client limit now s).1 = .failed (.scaleOutOfRange r n) ↔
      r = m.dst ∧ ∃ src dst, m.PlansFrom client now s src dst ∧
        plan m.goal.replicas m.goal.maxSurge m.counters (observe src dst) = .scaleOut n ∧
        2147483647 < dst.declared + n := by
  have hcause : FailureCause.outOfRange .dst r n = .scaleOutOfRange r n := rfl
  rw [← hcause, pass_eq_outOfRange_iff]
  refine and_congr_right fun _ => exists_congr fun src => exists_congr fun dst =>
    and_congr_right fun hplans => and_congr_right fun hplan => ?_
  -- a count grows from within the range, so that it can leave it only at the upper end
  obtain ⟨hpos, -⟩ := of_plan_eq_scaleOut hplan
  have hdeclared := inReplicaRange_iff.1 (hplans.inRange hreads).dstDeclared
  rw [← Bool.not_eq_true, inReplicaRange_iff]
  simp only [observe, Side.pick, Side.change] at hdeclared ⊢
  omega

/-- A pass that comes to plan has found that the migration is not complete. -/
theorem PlansFrom.not_isComplete (h : m.PlansFrom client now s src dst) :
    ¬ m.isComplete = true := by
  have hopen := h.1
  simp only [isOpen, Bool.and_eq_true, Bool.not_eq_true'] at hopen
  exact Bool.eq_false_iff.1 hopen.1.2

/-! ## Any sequence of passes -/

/-- What passes over a migration keep: what it is about, balanced counters, and that it has not been
refused to take replicas from the source. -/
structure Counting (origin m : Migration) : Prop where
  src_eq : m.src = origin.src
  dst_eq : m.dst = origin.dst
  goal_eq : m.goal = origin.goal
  balanced : m.counters.Balanced origin.goal.replicas origin.goal.maxSurge
  message_ne : ∀ e r n, m.ending = some e → e.message ≠ (FailureCause.scaleInOfRange r n).message

variable {origin : Migration}

theorem counting_start {goal : Goal} (hgoal : goal.InRange) (id : MigrationId)
    (src dst : ResourceRef) (pair : Pair) (baseline : Generations) (started : Nat) :
    Counting (start id src dst pair goal baseline started)
      (start id src dst pair goal baseline started) where
  src_eq := rfl
  dst_eq := rfl
  goal_eq := rfl
  balanced := Counters.balanced_zero (Int.le_trans (by decide) hgoal.one_le_replicas)
    (Int.le_trans (by decide) hgoal.one_le_maxSurge)
  message_ne := nofun

/-- On balanced counters both tests for completion agree. -/
theorem Counting.isComplete_iff (h : Counting origin m) (hgoal : origin.goal.InRange)
    (o : Observation) :
    plan m.goal.replicas m.goal.maxSurge m.counters o = .complete ↔ m.isComplete = true := by
  rw [h.goal_eq, h.balanced.plan_eq_complete_iff hgoal.one_le_maxSurge, ← h.goal_eq]
  exact decide_eq_true_iff.symm

theorem Counting.computesInRange (h : Counting origin m) (hgoal : origin.goal.InRange)
    (ho : o.InRange) : m.ComputesInRange o := by
  have hbalanced := h.balanced
  rw [← h.goal_eq] at hbalanced hgoal
  exact
    { lead_eq := hbalanced.lead?_eq hgoal.maxSurge_le
      plan_eq := hbalanced.plan?_eq hgoal.replicas_le hgoal.maxSurge_le ho
      after_eq := hbalanced.after?_eq hgoal.replicas_le o
      advance_eq := fun _ _ hplan => advanceSide?_eq hbalanced hgoal.replicas_le hplan }

/-- What a pass says as it ends a migration is no refusal to take replicas from the source. -/
theorem message_ne_of_pass (hreads : client.ReadsInRange m.src m.dst s) {ending : Ending}
    (h : (m.pass client limit now s).1.ending? now = some ending) (r : ResourceRef) (n : Int) :
    ending.message ≠ (FailureCause.scaleInOfRange r n).message := by
  cases hpass : (m.pass client limit now s).1 with
  | succeeded =>
    rw [hpass] at h
    cases h
    exact fun heq => FailureCause.message_ne _ heq.symm
  | failed cause =>
    rw [hpass] at h
    cases h
    intro heq
    obtain ⟨r', n', rfl⟩ := FailureCause.of_message_eq_scaleIn heq
    exact pass_ne_scaleInOfRange hreads hpass
  | unchanged => rw [hpass] at h; cases h
  | landed side k generation => rw [hpass] at h; cases h
  | refused e => rw [hpass] at h; cases h

/-- One pass keeps it. -/
theorem Counting.conclude_pass (h : Counting origin m) (limit now : Nat)
    (hreads : client.ReadsInRange m.src m.dst s) :
    Counting origin (m.conclude now (m.pass client limit now s).1) where
  src_eq := by rw [src_conclude, h.src_eq]
  dst_eq := by rw [dst_conclude, h.dst_eq]
  goal_eq := by rw [goal_conclude, h.goal_eq]
  balanced := by
    have hbalanced := h.balanced
    rw [← h.goal_eq] at hbalanced ⊢
    exact (balanced_conclude_pass hbalanced client limit now s).1
  message_ne := by
    intro e r n hending
    cases hterminal : m.isTerminal with
    | true =>
      rw [pass_of_isTerminal hterminal] at hending
      exact h.message_ne e r n hending
    | false =>
      have hnone : m.ending = none := isTerminal_eq_false_iff.1 hterminal
      cases hverdict : (m.pass client limit now s).1.ending? now with
      | none =>
        rw [(ending_conclude_eq_none_iff m now _).2 ⟨hverdict, hnone⟩] at hending
        cases hending
      | some ending =>
        rw [conclude_of_ending hnone hverdict] at hending
        cases hending
        exact message_ne_of_pass hreads hverdict r n

end Migration

namespace Registry

variable {σ : Type} {client : Client σ} {g : Registry} {id : MigrationId} {m : Migration}

/-- Any sequence of passes keeps it. -/
theorem exists_counting_afterPasses {origin : Migration} (limit : Nat) (hm : g.get? id = some m)
    (h : Migration.Counting origin m) {passes : List (Nat × σ)}
    (hreads : ∀ pass ∈ passes, client.ReadsInRange origin.src origin.dst pass.2) :
    ∃ m', (g.afterPasses client limit id passes).get? id = some m' ∧
      Migration.Counting origin m' := by
  induction passes generalizing g m with
  | nil => exact ⟨m, hm, h⟩
  | cons pass rest ih =>
    obtain ⟨hread, hrest⟩ := List.forall_mem_cons.1 hreads
    rw [← h.src_eq, ← h.dst_eq] at hread
    exact ih (reconcile_of_get? hm client limit pass.1 pass.2).1
      (h.conclude_pass limit pass.1 hread) hrest

/-- A pass that refuses to give the destination replicas makes no write, and ends the migration as
it is. -/
theorem of_pass_eq_scaleOutOfRange {limit now : Nat} {s : σ} {r : ResourceRef} {n : Int}
    (hm : g.get? id = some m)
    (h : (m.pass client limit now s).1 = .failed (.scaleOutOfRange r n)) :
    (∀ c ∈ g.passCalls client limit now id s, c.isGet = true) ∧
    (g.reconcile client limit now id s).2.1.get? id =
      some { m with
        ending := some ⟨false, (FailureCause.scaleOutOfRange r n).message, now⟩ } := by
  constructor
  · unfold passCalls
    rcases m.pass_recorded_cases client limit now s with
      ⟨v, t, calls, -, -, hcalls, -, hrecorded⟩ | ⟨src, dst, t, side, k, -, -, -, hpass, -⟩
    · rw [reconcile_of_pass hm hrecorded]
      intro c hc
      rcases hcalls with rfl | rfl
      · cases hc
      · exact Migration.isGet_of_mem_reads hc
    · rw [hpass] at h
      exact absurd h (Migration.move_ne_outOfRange .dst)
  · have hexecuting : m.ending = none := by
      cases hterminal : m.isTerminal with
      | false => exact Migration.isTerminal_eq_false_iff.1 hterminal
      | true => rw [Migration.pass_of_isTerminal hterminal] at h; cases h
    rw [(reconcile_of_get? hm client limit now s).1, h, Migration.conclude_of_ending hexecuting rfl]
    rfl

/-- Counting. A migration with a goal that fits has been started, and passes have been made over it
whose reads answered with counts that fit. Then all that planning, taking the step and counting it
compute fits, and the plan is complete just if the migration is. The migration has not ended with a
refusal to take replicas from the source. The next pass plans no end, and refuses to take none; it
refuses to give the destination replicas just if it has planned to and their number would pass the
range, and then it writes nothing. -/
theorem passes_count_in_range (client : Client σ) (limit : Nat) {goal : Goal}
    (hgoal : goal.InRange) {src dst : ResourceRef} {pair : Pair} {baseline : Generations}
    {started : Nat} (hm : g.get? id = some (.start id src dst pair goal baseline started))
    {passes : List (Nat × σ)} (hreads : ∀ pass ∈ passes, client.ReadsInRange src dst pass.2) :
    let g' := g.afterPasses client limit id passes
    ∃ m, g'.get? id = some m ∧ m.dst = dst ∧ m.goal = goal ∧
      (∀ o : Observation, o.InRange → m.ComputesInRange o ∧
        (plan goal.replicas goal.maxSurge m.counters o = .complete ↔ m.isComplete = true)) ∧
      (∀ e r n, m.ending = some e → e.message ≠ (FailureCause.scaleInOfRange r n).message) ∧
      ∀ now s, client.ReadsInRange src dst s →
        (∀ v w, m.PlansFrom client now s v w →
          let step := plan goal.replicas goal.maxSurge m.counters (Migration.observe v w)
          step ≠ .complete ∧ ∀ n, step = .scaleIn n → inReplicaRange (v.declared - n) = true) ∧
        ∀ r n, let verdict := (m.pass client limit now s).1
          verdict ≠ .failed (.scaleInOfRange r n) ∧
          (verdict = .failed (.scaleOutOfRange r n) ↔
            r = dst ∧ ∃ v w, m.PlansFrom client now s v w ∧
              plan goal.replicas goal.maxSurge m.counters (Migration.observe v w) =
                .scaleOut n ∧ 2147483647 < w.declared + n) ∧
          (verdict = .failed (.scaleOutOfRange r n) →
            (∀ c ∈ g'.passCalls client limit now id s, c.isGet = true) ∧
            (g'.reconcile client limit now id s).2.1.get? id =
              some { m with
                ending := some ⟨false, (FailureCause.scaleOutOfRange r n).message, now⟩ }) := by
  intro g'
  obtain ⟨m, hget, hcounting⟩ := exists_counting_afterPasses limit hm
    (Migration.counting_start hgoal id src dst pair baseline started) hreads
  obtain rfl : m.src = src := hcounting.src_eq
  obtain rfl : m.dst = dst := hcounting.dst_eq
  obtain rfl : m.goal = goal := hcounting.goal_eq
  refine ⟨m, hget, rfl, rfl,
    fun o ho => ⟨hcounting.computesInRange hgoal ho, hcounting.isComplete_iff hgoal o⟩,
    hcounting.message_ne, fun now s hread => ⟨fun v w hplans => ⟨?_, ?_⟩, fun r n => ⟨?_, ?_, ?_⟩⟩⟩
  · exact fun hstep => hplans.not_isComplete ((hcounting.isComplete_iff hgoal _).1 hstep)
  · exact fun n hstep => hplans.inRange_of_scaleIn hread hstep
  · exact Migration.pass_ne_scaleInOfRange hread
  · exact Migration.pass_eq_scaleOutOfRange_iff hread
  · exact of_pass_eq_scaleOutOfRange hget

/-- A destination one replica short of the greatest count is given that one, and the source is
relieved of one. The pass after that would give it another, which is refused. -/
theorem passes_count_in_range_full_destination :
    let web := (Workload.named .deployment "default" "web").withReplicas (some 3)
    let webCs := (Workload.named .cloneSet "default" "web-cs").withReplicas (some 2147483646)
    let goal : Goal := ⟨3, 1, none⟩
    let g := Registry.empty.register
      (.start ⟨7⟩ web.ref webCs.ref .deploymentToCloneSet goal ⟨1, 1⟩ 0)
    let p₀ := (((Platform.empty 4).put web).2.put webCs).2.settleAll.2
    let p₁ := (g.reconcile Platform.client 5 10 ⟨7⟩ p₀).2.2.settleAll.2
    let passes := [(10, p₀), (20, p₁)]
    let g₁ := g.afterPasses Platform.client 5 ⟨7⟩ passes
    let p₂ := ((g.afterPasses Platform.client 5 ⟨7⟩ [(10, p₀)]).reconcile
      Platform.client 5 20 ⟨7⟩ p₁).2.2.settleAll.2
    goal.InRange ∧ (∀ pass ∈ passes, Platform.client.ReadsInRange web.ref webCs.ref pass.2) ∧
      Platform.client.ReadsInRange web.ref webCs.ref p₂ ∧
      ∃ m, g₁.get? ⟨7⟩ = some m ∧ m.counters = ⟨1, 1⟩ ∧
        (∀ c ∈ g₁.passCalls Platform.client 5 30 ⟨7⟩ p₂, c.isGet = true) ∧
        (g₁.reconcile Platform.client 5 30 ⟨7⟩ p₂).2.1.get? ⟨7⟩ =
          some { m with
            ending := some ⟨false, (FailureCause.scaleOutOfRange webCs.ref 1).message, 30⟩ } := by
  intro web webCs goal g p₀ p₁ passes g₁ p₂
  have hm : g.get? ⟨7⟩ =
      some (.start ⟨7⟩ web.ref webCs.ref .deploymentToCloneSet goal ⟨1, 1⟩ 0) := by decide +kernel
  have hgoal : goal.InRange := ⟨by decide, by decide, by decide, by decide⟩
  have hreads : ∀ pass ∈ passes, Platform.client.ReadsInRange web.ref webCs.ref pass.2 := by
    have hobjects : ∀ pass ∈ passes, ∀ w ∈ pass.2.objects.values,
        inReplicaRange w.declared = true ∧ inReplicaRange w.status.availableReplicas = true := by
      decide +kernel
    exact fun pass hpass => Platform.readsInRange_client (hobjects pass hpass) _ _
  have hread : Platform.client.ReadsInRange web.ref webCs.ref p₂ := by
    have hobjects : ∀ w ∈ p₂.objects.values,
        inReplicaRange w.declared = true ∧ inReplicaRange w.status.availableReplicas = true := by
      decide +kernel
    exact Platform.readsInRange_client hobjects _ _
  have hrefused : (g₁.get? ⟨7⟩).map (fun m => (m.counters, (m.pass Platform.client 5 30 p₂).1)) =
      some (⟨1, 1⟩, .failed (.scaleOutOfRange webCs.ref 1)) := by decide +kernel
  clear_value g p₀ p₁ p₂
  obtain ⟨m, hget, -, -, -, -, hnext⟩ :=
    passes_count_in_range Platform.client 5 hgoal hm hreads
  have hget' : g₁.get? ⟨7⟩ = some m := hget
  rw [hget', Option.map_some, Option.some.injEq, Prod.mk.injEq] at hrefused
  obtain ⟨-, hverdict⟩ := hnext 30 p₂ hread
  obtain ⟨hcalls, hafter⟩ := (hverdict webCs.ref 1).2.2 hrefused.2
  exact ⟨hgoal, hreads, hread, m, hget, hrefused.1, hcalls, hafter⟩

end Registry

end Handover
