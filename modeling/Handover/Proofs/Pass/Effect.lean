import Handover.Proofs.Pass.Calls
import Handover.Proofs.Pass.Counters
import Handover.Proofs.Registry.Exclusive

/-!
# The effect of a pass

A pass makes at most one write, and only if a number of things are so (`Attempt.Permitted`). What
comes of it is one of four effects, whatever the client answers: nothing has changed, the migration
has ended, replicas have moved, or a write was refused and is worth another attempt. Each of them
says what has become of everything that the registry knows (`PassEffect.Describes`), and what a pass
has left tells which one it was (`PassEffect.of_describes`). `Registry.pass_is_gated` is the whole.
-/

namespace Handover

variable {σ : Type}

/-! ## Migrations as they come about -/

/-- A migration that was started, or that had succeeded from the start, and that has counted,
recorded and ended since. -/
inductive Migration.Arises : Migration → Prop
  | start (id : MigrationId) (src dst : ResourceRef) (pair : Pair) (goal : Goal)
      (baseline : Generations) (now : Nat) : Arises (.start id src dst pair goal baseline now)
  | completed (id : MigrationId) (src dst : ResourceRef) (pair : Pair) (replicas : Int)
      (now : Nat) : Arises (.completed id src dst pair replicas now)
  | advance {m : Migration} (h : m.Arises) (src dst : Int) : Arises (m.advance src dst)
  | finish {m : Migration} (h : m.Arises) (ending : Ending) : Arises (m.finish ending)
  | recordGeneration {m : Migration} (h : m.Arises) (side : Side) (generation : Int) :
      Arises (m.recordGeneration side generation)
  | withWriteFailures {m : Migration} (h : m.Arises) (count : Nat) :
      Arises (m.withWriteFailures count)

/-- Counting stops at the target. -/
theorem Migration.Arises.within {m : Migration} (h : m.Arises) :
    m.counters.Within m.goal.replicas := by
  induction h with
  | start id src dst pair goal baseline now => exact .inl rfl
  | completed id src dst pair replicas now => exact .inl rfl
  | advance h src dst ih => exact .inr ⟨min_le_right _ _, min_le_right _ _⟩
  | finish h ending ih => exact ih
  | recordGeneration h side generation ih => exact ih
  | withWriteFailures h count ih => exact ih

/-- What a verdict leaves of a migration is a migration as they come about. -/
theorem Migration.Arises.conclude {m : Migration} (h : m.Arises) (now : Nat) (v : Verdict) :
    (m.conclude now v).Arises := by
  cases v with
  | unchanged => exact h
  | succeeded => exact h.finish _
  | failed cause =>
    cases cause with
    | exhausted attempt e => exact (h.withWriteFailures attempt).finish _
    | timedOut | platform | scaleOutOfRange | scaleInOfRange => exact h.finish _
  | landed side n generation =>
    have hlanded := (h.withWriteFailures 0).recordGeneration side generation
    cases side with
    | src => exact hlanded.advance n 0
    | dst => exact hlanded.advance 0 n
  | refused e => exact h.withWriteFailures _

/-! ## What a write takes -/

/-- A write of a pass: the migration, the two objects it has read, the state in which that leaves
the client, and how many replicas are moved on which side. -/
structure Attempt (σ : Type) where
  migration : Migration
  src : Workload
  dst : Workload
  state : σ
  side : Side
  amount : Int

namespace Attempt

/-- The object that is written, as it was read. -/
def object (a : Attempt σ) : Workload :=
  a.side.pick a.src a.dst

/-- The object as it is written. -/
def written (a : Attempt σ) : Workload :=
  a.object.moved a.side a.amount

/-- The calls of a pass that makes the write: both reads, and then the update. -/
def calls (a : Attempt σ) : List Call :=
  [.get a.migration.src, .get a.migration.dst, .update a.written]

/-- What has to be so for a pass to make a write. -/
structure Permitted (a : Attempt σ) (client : Client σ) (now : Nat) (id : MigrationId)
    (g : Registry) (s : σ) : Prop where
  known : g.get? id = some a.migration
  executing : a.migration.phase = .executing
  incomplete : a.migration.counters ≠ ⟨a.migration.goal.replicas, a.migration.goal.replicas⟩
  inTime : ∀ t, a.migration.goal.timeout = some t → a.migration.elapsed now ≤ t
  read : a.migration.readBoth client s = (.ok (a.src, a.dst), a.state)
  src_recent : a.migration.generations.src ≤ a.src.metadata.generation
  dst_recent : a.migration.generations.dst ≤ a.dst.metadata.generation
  src_observed : a.src.status.observedGeneration = a.src.metadata.generation
  dst_observed : a.dst.status.observedGeneration = a.dst.metadata.generation
  planned : plan a.migration.goal.replicas a.migration.goal.maxSurge a.migration.counters
    (Migration.observe a.src a.dst) = a.side.step a.amount
  available : a.side = .src → a.dst.status.availableReplicas = a.dst.declared
  inRange : inReplicaRange (a.object.declared + a.side.change a.amount) = true

theorem Permitted.pos {a : Attempt σ} {client : Client σ} {now : Nat} {id : MigrationId}
    {g : Registry} {s : σ} (h : a.Permitted client now id g s) : 0 < a.amount :=
  Side.pos_of_plan_eq h.planned

/-- What is permitted is what a pass intends. -/
theorem Permitted.intent_eq {a : Attempt σ} {client : Client σ} {now : Nat} {id : MigrationId}
    {g : Registry} {s : σ} (h : a.Permitted client now id g s) :
    a.migration.intent a.src a.dst = .write a.side a.amount :=
  Migration.intent_eq_write_iff.2 ⟨decide_eq_true ⟨h.src_recent, h.dst_recent,
    decide_eq_true h.src_observed, decide_eq_true h.dst_observed⟩, h.planned, h.inRange⟩

end Attempt

namespace Migration

variable {m : Migration} {now : Nat}

/-- An open migration is executing, with work and time left. -/
theorem isOpen_iff :
    m.isOpen now = true ↔ m.phase = .executing ∧
      m.counters ≠ ⟨m.goal.replicas, m.goal.replicas⟩ ∧
      ∀ t, m.goal.timeout = some t → m.elapsed now ≤ t := by
  have htime : m.timedOut now = false ↔ ∀ t, m.goal.timeout = some t → m.elapsed now ≤ t := by
    unfold timedOut
    cases m.goal.timeout <;> simp
  rw [← htime, phase_eq_executing_iff]
  unfold isOpen isComplete
  simp [and_assoc]

/-- A write that is intended from what an open migration has read is permitted. -/
theorem permitted_of_intent {client : Client σ} {id : MigrationId} {g : Registry} {s t : σ}
    {src dst : Workload} {side : Side} {n : Int} (hm : g.get? id = some m)
    (hopen : m.isOpen now = true) (hread : m.readBoth client s = (.ok (src, dst), t))
    (hintent : m.intent src dst = .write side n) :
    Attempt.Permitted ⟨m, src, dst, t, side, n⟩ client now id g s := by
  obtain ⟨hexecuting, hincomplete, htime⟩ := isOpen_iff.1 hopen
  obtain ⟨hcurrent, hplan, hrange⟩ := intent_eq_write_iff.1 hintent
  obtain ⟨hsrc, hdst, hsrc', hdst'⟩ := of_decide_eq_true hcurrent
  refine ⟨hm, hexecuting, hincomplete, htime, hread, hsrc, hdst, of_decide_eq_true hsrc',
    of_decide_eq_true hdst', hplan, ?_, hrange⟩
  rintro rfl
  obtain ⟨-, -, -, -, havailable⟩ := of_plan_eq_scaleIn hplan
  exact havailable.symm

end Migration

/-! ## The end of a migration -/

namespace Registry

/-- Of two registries, the second one is the first one after the end of a migration: it is known as
it ended, it no longer owns what it named, and everything else is as before. -/
structure Releases (g f : Registry) (id : MigrationId) (m ended : Migration) : Prop where
  get?_eq : ∀ other, f.get? other = if other = id then some ended else g.get? other
  ownerOf?_eq : ∀ r,
    f.ownerOf? r = if m.names r = true ∧ g.ownerOf? r = some id then none else g.ownerOf? r
  watched_eq : f.watched = g.watched

/-- Recording how an executing migration ends releases its objects. -/
theorem releases_record {g : Registry} {id : MigrationId} {m : Migration}
    (hm : g.get? id = some m) (hexecuting : m.isTerminal = false) {now : Nat} {v : Verdict}
    {ending : Ending} (hending : v.ending? now = some ending) :
    g.Releases (g.record id now v) id m (m.conclude now v) := by
  have hrecord : g.record id now v =
      (((g.modify id v.applyTo).modify id (·.finish ending)).release id m.src).release id
        m.dst := by
    rw [record_eq_recording hm]
    unfold recording
    rw [hending, hexecuting]
    rfl
  refine ⟨fun other => ?_, fun r => ?_, ?_⟩
  · rw [get?_record]
    split
    · next h => rw [h, hm, Option.map_some]
    · rfl
  · have howner : ((g.modify id v.applyTo).modify id (·.finish ending)).ownerOf? r =
        g.ownerOf? r := rfl
    rw [hrecord, ownerOf?_release_release, howner]
  · exact g.watched_record id now v

end Registry

/-! ## The four effects -/

/-- What can come of a pass. -/
inductive PassEffect where
  | nothing
  | ended
  | moved
  | refused
  deriving DecidableEq

namespace PassEffect

/-- What a pass over a known migration has answered and left, and what it has called, if it has this
effect. -/
def Describes (client : Client σ) (limit now : Nat) (id : MigrationId) (g : Registry) (s : σ)
    (result : Except WriteError Unit × Registry × σ) (calls : List Call) : PassEffect → Prop
  | nothing => result.1 = .ok () ∧ result.2.1 = g ∧ calls.countP Call.isUpdate = 0
  | ended => result.1 = .ok () ∧ ∃ m ending failures, g.get? id = some m ∧ m.phase = .executing ∧
      (failures = m.writeFailures ∨ limit < failures ∧ failures = keptCount (m.writeFailures + 1)) ∧
      g.Releases result.2.1 id m { m with ending := some ending, writeFailures := failures } ∧
      ∀ a : Attempt σ, a.Permitted client now id g s → .update a.written ∈ calls →
        ∃ e, client.update a.written a.state = (.error e, result.2.2)
  | moved => result.1 = .ok () ∧ ∃ (a : Attempt σ) (written : Workload),
      a.Permitted client now id g s ∧ calls = a.calls ∧
      client.update a.written a.state = (.ok written, result.2.2) ∧
      result.2.1 = g.modify id fun m => { m with
        counters := m.counters.after (a.side.step a.amount)
        generations := m.generations.record a.side written.metadata.generation
        writeFailures := 0 }
  | refused => ∃ (a : Attempt σ) (e : PlatformError),
      a.Permitted client now id g s ∧ calls = a.calls ∧
      client.update a.written a.state = (.error e, result.2.2) ∧ e.retryable = true ∧
      keptCount (a.migration.writeFailures + 1) ≤ limit ∧
      result.1 = .error ⟨a.object.ref, keptCount (a.migration.writeFailures + 1), e⟩ ∧
      result.2.1 = g.modify id fun m => { m with writeFailures := keptCount (m.writeFailures + 1) }

/-- The effect of a pass by its answer and by what it has left of the migration. -/
def of (id : MigrationId) (g : Registry) (answer : Except WriteError Unit) (f : Registry) :
    PassEffect :=
  match answer with
  | .error _ => refused
  | .ok () =>
    if f.get? id = g.get? id then nothing
    else if (f.get? id).any (·.isTerminal) then ended
    else moved

variable {client : Client σ} {limit now : Nat} {id : MigrationId} {g : Registry} {s t : σ}
  {m : Migration} {v : Verdict} {calls : List Call}

/-- No pass has two effects. -/
theorem of_describes {effect : PassEffect} {result : Except WriteError Unit × Registry × σ}
    (h : effect.Describes client limit now id g s result calls) :
    of id g result.1 result.2.1 = effect := by
  cases effect with
  | nothing =>
    obtain ⟨hanswer, hregistry, -⟩ := h
    unfold of
    rw [hanswer, hregistry]
    exact if_pos rfl
  | ended =>
    obtain ⟨hanswer, m, ending, failures, hm, hexecuting, -, hreleases, -⟩ := h
    have hget := (hreleases.get?_eq id).trans (if_pos rfl)
    rw [Migration.phase_eq_executing_iff, Migration.isTerminal_eq_false_iff] at hexecuting
    have hne : result.2.1.get? id ≠ g.get? id := by
      rw [hget, hm]
      intro h
      have hending := congrArg Migration.ending (Option.some.inj h)
      rw [hexecuting] at hending
      cases hending
    unfold of
    rw [hanswer]
    dsimp only
    rw [if_neg hne, hget]
    rfl
  | moved =>
    obtain ⟨hanswer, a, written, ha, -, -, hregistry⟩ := h
    have hget : result.2.1.get? id = some { a.migration with
        counters := a.migration.counters.after (a.side.step a.amount)
        generations := a.migration.generations.record a.side written.metadata.generation
        writeFailures := 0 } := by
      rw [hregistry, Registry.get?_modify, if_pos rfl, ha.known, Option.map_some]
    have hne : result.2.1.get? id ≠ g.get? id := by
      rw [hget, ha.known]
      intro h
      have hcounters := congrArg (fun m : Migration => m.counters.count a.side) (Option.some.inj h)
      have hcount := a.migration.counters.count_after_step a.side a.side a.amount
      rw [if_pos rfl] at hcount
      have hpos := ha.pos
      simp only at hcounters
      omega
    have hexecuting := Migration.phase_eq_executing_iff.1 ha.executing
    unfold of
    rw [hanswer]
    dsimp only
    rw [if_neg hne, hget]
    exact if_neg (by simpa [Migration.isTerminal] using hexecuting)
  | refused =>
    obtain ⟨a, e, -, -, -, -, -, hanswer, -⟩ := h
    unfold of
    rw [hanswer]

/-- To end an executing migration, having made no write that was accepted, is the second effect. -/
theorem describes_ended (hm : g.get? id = some m) (hexecuting : m.ending = none) {ending : Ending}
    (hending : v.ending? now = some ending)
    (hfailures : (v.applyTo m).writeFailures = m.writeFailures ∨
      limit < (v.applyTo m).writeFailures ∧
        (v.applyTo m).writeFailures = keptCount (m.writeFailures + 1))
    (hrefused : ∀ a : Attempt σ, a.Permitted client now id g s → .update a.written ∈ calls →
      ∃ e, client.update a.written a.state = (.error e, t)) :
    ended.Describes client limit now id g s (v.answer, g.record id now v, t) calls := by
  have hexecuting' := Migration.isTerminal_eq_false_iff.2 hexecuting
  refine ⟨?_, m, ending, _, hm, Migration.phase_eq_executing_iff.2 hexecuting', hfailures, ?_,
    hrefused⟩
  · cases v with
    | refused e => cases hending
    | unchanged | succeeded | failed cause | landed side n generation => rfl
  · rw [← Migration.conclude_of_ending hexecuting hending]
    exact Registry.releases_record hm hexecuting' hending

/-- A verdict that was reached without a write has changed nothing or ended the migration. -/
theorem exists_describes_of_isWriteless (hm : g.get? id = some m) (hv : v.isWriteless = true)
    (hterminal : m.isTerminal = true → v = .unchanged) (hcalls : calls.countP Call.isUpdate = 0) :
    ∃ effect : PassEffect,
      effect.Describes client limit now id g s (v.answer, g.record id now v, t) calls := by
  have hno : ∀ a : Attempt σ, .update a.written ∉ calls := fun a ha =>
    List.countP_eq_zero.1 hcalls _ ha rfl
  have hends : v.ending? now ≠ none → ∃ effect : PassEffect,
      effect.Describes client limit now id g s (v.answer, g.record id now v, t) calls := by
    intro hending
    obtain ⟨ending, hending⟩ := Option.ne_none_iff_exists'.1 hending
    have hexecuting : m.ending = none := by
      rw [← Migration.isTerminal_eq_false_iff, Bool.eq_false_iff]
      intro h
      rw [hterminal h] at hending
      cases hending
    have hfailures : (v.applyTo m).writeFailures = m.writeFailures := by
      cases v with
      | failed cause =>
        cases cause with
        | exhausted attempt e => cases hv
        | timedOut | platform | scaleOutOfRange | scaleInOfRange => rfl
      | unchanged | succeeded => rfl
      | landed side n generation => cases hv
      | refused e => cases hv
    exact ⟨ended, describes_ended hm hexecuting hending (.inl hfailures)
      fun a _ ha => absurd ha (hno a)⟩
  cases v with
  | unchanged => exact ⟨nothing, rfl, g.record_unchanged id now, hcalls⟩
  | succeeded => exact hends (Option.some_ne_none _)
  | failed cause => exact hends (Option.some_ne_none _)
  | landed side n generation => cases hv
  | refused e => cases hv

/-- A permitted write that the client accepts moves replicas. -/
theorem describes_moved {a : Attempt σ} (ha : a.Permitted client now id g s)
    (hwithin : a.migration.counters.Within a.migration.goal.replicas) {written : Workload}
    (hupdate : client.update a.written a.state = (.ok written, t)) :
    moved.Describes client limit now id g s
      (.ok (), g.record id now (.landed a.side a.amount written.metadata.generation), t)
      a.calls := by
  refine ⟨rfl, a, written, ha, rfl, hupdate, Registry.modify_congr ha.known ?_⟩
  have hcounters :=
    Migration.counters_conclude_landed hwithin ha.intent_eq now written.metadata.generation
  rw [← hcounters]
  cases a.side <;> rfl

/-- A permitted write that the client does not accept is refused or ends the migration. -/
theorem exists_describes_of_error {a : Attempt σ} (ha : a.Permitted client now id g s)
    {e : PlatformError} (hupdate : client.update a.written a.state = (.error e, t))
    (hv : a.migration.onWriteError limit a.object.ref e = v) :
    ∃ effect : PassEffect,
      effect.Describes client limit now id g s (v.answer, g.record id now v, t) a.calls := by
  have hexecuting : a.migration.ending = none :=
    Migration.isTerminal_eq_false_iff.1 (Migration.phase_eq_executing_iff.1 ha.executing)
  have hrefused : ∀ b : Attempt σ, b.Permitted client now id g s → .update b.written ∈ a.calls →
      ∃ e, client.update b.written b.state = (.error e, t) := by
    intro b hb hcall
    have hmigration : a.migration = b.migration := Option.some.inj (ha.known.symm.trans hb.known)
    have hread := ha.read.symm.trans (hmigration ▸ hb.read)
    have hstate : a.state = b.state := congrArg (·.2) hread
    have hwritten : b.written = a.written := by simpa [Attempt.calls] using hcall
    exact ⟨e, by rw [hwritten, ← hstate, hupdate]⟩
  unfold Migration.onWriteError at hv
  split at hv
  · next hretryable =>
    dsimp only at hv
    split at hv
    · next hlimit =>
      subst hv
      exact ⟨ended, describes_ended ha.known hexecuting rfl (.inr ⟨hlimit, rfl⟩) hrefused⟩
    · next hlimit =>
      subst hv
      exact ⟨refused, a, e, ha, rfl, hupdate, hretryable, Nat.not_lt.1 hlimit, rfl,
        Registry.modify_congr ha.known rfl⟩
  · subst hv
    exact ⟨ended, describes_ended ha.known hexecuting rfl (.inl rfl) hrefused⟩

end PassEffect

/-! ## Every pass -/

namespace Registry

/-- The calls of a pass. -/
def passCalls (client : Client σ) (limit now : Nat) (id : MigrationId) (g : Registry) (s : σ) :
    List Call :=
  (g.reconcile client.recorded limit now id (s, [])).2.2.2

/-- What a pass calls, and what comes of it: reads alone or the calls of a permitted attempt, and in
any case one of the four effects. -/
theorem passCalls_cases (client : Client σ) (limit now : Nat) (id : MigrationId) {g : Registry}
    (hwithin : ∀ m, g.get? id = some m → m.counters.Within m.goal.replicas) (s : σ) :
    g.reconcile client.recorded limit now id (s, []) =
      ((g.reconcile client limit now id s).1, (g.reconcile client limit now id s).2.1,
        (g.reconcile client limit now id s).2.2, g.passCalls client limit now id s) ∧
    ((∀ c ∈ g.passCalls client limit now id s, c.isGet = true) ∨
      ∃ a : Attempt σ, a.Permitted client now id g s ∧
        g.passCalls client limit now id s = a.calls) ∧
    ∃ effect : PassEffect, effect.Describes client limit now id g s
      (g.reconcile client limit now id s) (g.passCalls client limit now id s) := by
  unfold passCalls
  cases hm : g.get? id with
  | none =>
    rw [reconcile_of_get?_eq_none hm, reconcile_of_get?_eq_none hm]
    exact ⟨rfl, .inl fun c hc => absurd hc List.not_mem_nil, .nothing, rfl, rfl, rfl⟩
  | some m =>
    rcases m.pass_recorded_cases client limit now s with
      ⟨v, t, calls, hv, -, hcalls, hpass, hrecorded⟩ |
        ⟨src, dst, t, side, n, hopen, hread, hintent, hpass, hrecorded⟩
    · have hgets : ∀ c ∈ calls, c.isGet = true := by
        intro c hc
        rcases hcalls with rfl | rfl
        · cases hc
        · exact Migration.isGet_of_mem_reads hc
      have hterminal : m.isTerminal = true → v = .unchanged := by
        intro h
        rw [Migration.pass_of_isTerminal h] at hpass
        exact (congrArg (·.1) hpass).symm
      rw [reconcile_of_pass hm hrecorded, reconcile_of_pass hm hpass]
      exact ⟨rfl, .inl hgets, PassEffect.exists_describes_of_isWriteless hm hv hterminal
        (Call.countP_isUpdate_of_isGet hgets)⟩
    · have ha := Migration.permitted_of_intent hm hopen hread hintent
      rw [reconcile_of_pass hm hrecorded]
      rcases m.move_cases client limit side n (side.pick src dst) t with
        ⟨written, u, hupdate, hmove⟩ | ⟨e, u, hupdate, hmove⟩
      · rw [hmove] at hpass
        rw [reconcile_of_pass hm hpass, hpass]
        refine ⟨rfl, .inr ⟨_, ha, rfl⟩, ?_⟩
        exact ⟨.moved, PassEffect.describes_moved ha (hwithin m hm) hupdate⟩
      · rw [hmove] at hpass
        rw [reconcile_of_pass hm hpass, hpass]
        refine ⟨rfl, .inr ⟨_, ha, rfl⟩, ?_⟩
        exact PassEffect.exists_describes_of_error ha hupdate rfl

/-- An executing migration whose counters are both at the target succeeds with its next pass, which
calls nobody. -/
theorem passCalls_of_complete (client : Client σ) (limit now : Nat) {id : MigrationId}
    {g : Registry} {m : Migration} (hm : g.get? id = some m) (hexecuting : m.phase = .executing)
    (hcomplete : m.counters = ⟨m.goal.replicas, m.goal.replicas⟩) (s : σ) :
    g.passCalls client limit now id s = [] ∧
    (g.reconcile client limit now id s).1 = .ok () ∧
    (g.reconcile client limit now id s).2.1.get? id =
      some { m with ending := some ⟨true, "", now⟩ } := by
  rw [Migration.phase_eq_executing_iff] at hexecuting
  have hpass : ∀ {τ : Type} (client : Client τ) (s : τ),
      m.pass client limit now s = (.succeeded, s) := by
    intro τ client s
    have hcomplete' : m.isComplete = true := decide_eq_true hcomplete
    simp only [Migration.pass, hexecuting, hcomplete']
    rfl
  unfold passCalls
  rw [reconcile_of_pass hm (hpass client s), reconcile_of_pass hm (hpass client.recorded (s, []))]
  refine ⟨rfl, rfl, ?_⟩
  have hending := Migration.isTerminal_eq_false_iff.1 hexecuting
  rw [get?_record, if_pos rfl, hm, Option.map_some, Migration.conclude_of_ending hending rfl]
  rfl

end Registry

end Handover
