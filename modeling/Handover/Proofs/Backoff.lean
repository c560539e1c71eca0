import Handover.Proofs.Queue.Rounds
import Handover.Proofs.Refusal
import Handover.Proofs.RetryBudget
import Mathlib.Logic.Function.Basic

/-!
# Backoff and the retry budget

Two counters follow the writes that fail: a migration counts its failures, and the queue counts how
often the migration has been backed off. The first starts anew with a write that lands, the second
with any pass that is answered well, and passes may come before a delay is over. A migrator is used
in any order (`Shift.Step`): workers run passes over what they hold, and between passes anything may
happen but that somebody else runs passes or rate-limits items. What is done between passes backs
nothing off (`Engine.Rests`), so only the passes have to be looked at (`Shift.Paced.pass`). As long
as no count comes to its end, the queue's counter never outruns the other one, nor the budget
(`Shift.backoff_within_budget`).
-/

namespace Handover

/-! ## The backoff of a queue -/

namespace WorkQueue

variable {ι : Type} [DecidableEq ι] {q : WorkQueue ι} {op : Operation ι} {x y : ι} {now : Nat}

/-- What a queue backs off by: its backoff and the failures that it remembers. -/
def pace (q : WorkQueue ι) : Backoff × Table ι Nat :=
  (q.backoff, q.failures)

theorem pace_add (q : WorkQueue ι) (x : ι) : (q.add x).pace = q.pace := by
  unfold add
  split
  · rfl
  · dsimp only
    split <;> rfl

theorem pace_done (q : WorkQueue ι) (x : ι) : (q.done x).pace = q.pace := by
  unfold done
  dsimp only
  split <;> rfl

theorem pace_addAfter (q : WorkQueue ι) (now : Nat) (x : ι) (delay : Nat) :
    (q.addAfter now x delay).pace = q.pace := by
  unfold addAfter
  split
  · rfl
  · split
    · exact pace_add q x
    · rfl

theorem pace_take (q : WorkQueue ι) : q.take.2.pace = q.pace := by
  unfold take
  dsimp only
  split
  · rfl
  · split <;> rfl

theorem pace_serve (q : WorkQueue ι) (getter : Nat) : (q.serve getter).2.pace = q.pace := by
  have htake := pace_take { q with wakeups := q.wakeups.leave getter }
  unfold serve
  split
  · next heq =>
    rw [heq] at htake
    exact htake
  · exact htake

/-- Failures are remembered only when an item is rate-limited, and an item is forgotten as a
whole. -/
theorem pace_next (hop : ∀ now x, op ≠ .addRateLimited now x) :
    (q.next op).pace = q.pace ∨
      ∃ x, (q.next op).pace = (q.backoff, q.failures.erase x) := by
  cases op with
  | add x => exact .inl (pace_add q x)
  | take => exact .inl (pace_take q)
  | enter getter => exact .inl rfl
  | serve getter => exact .inl (pace_serve q getter)
  | done x => exact .inl (pace_done q x)
  | forget x => exact .inr ⟨x, rfl⟩
  | addAfter now x delay => exact .inl (pace_addAfter q now x delay)
  | addRateLimited now x => exact absurd rfl (hop now x)
  | expire now =>
    refine .inl ?_
    show ((q.expire? now).getD q).pace = q.pace
    unfold expire?
    cases splitDue? now q.delayed with
    | none => rfl
    | some found => exact pace_add { q with delayed := found.2 } found.1.item
  | shutdown => exact .inl rfl

theorem requeues_of_pace {r : WorkQueue ι} {failures : Table ι Nat} {backoff : Backoff}
    (h : r.pace = (backoff, failures)) (x : ι) : r.requeues x = (failures.get? x).getD 0 := by
  have hfailures : r.failures = failures := congrArg (·.2) h
  unfold requeues
  rw [hfailures]

/-- Unless an item is rate-limited, no item is backed off further. -/
theorem requeues_next_le (hop : ∀ now x, op ≠ .addRateLimited now x) (x : ι) :
    (q.next op).requeues x ≤ q.requeues x := by
  rcases pace_next hop with hpace | ⟨y, hpace⟩
  · exact (requeues_of_pace hpace x).le
  · rw [requeues_of_pace hpace, Table.get?_erase]
    split
    · exact Nat.zero_le _
    · exact le_refl _

theorem backoff_next (hop : ∀ now x, op ≠ .addRateLimited now x) :
    (q.next op).backoff = q.backoff := by
  rcases pace_next hop with hpace | ⟨y, hpace⟩ <;> exact congrArg (·.1) hpace

/-- An addition is put off only if it is to be delayed and the queue has not been shut down. -/
theorem delayed_addAfter_eq (q : WorkQueue ι) (now : Nat) (x : ι) (delay : Nat) :
    (q.addAfter now x delay).delayed =
      if q.shuttingDown = true ∨ delay = 0 then q.delayed
      else q.delayed ++ [⟨now + delay, x⟩] := by
  cases hshut : q.shuttingDown with
  | true => rw [addAfter_of_shuttingDown hshut, if_pos (.inl rfl)]
  | false =>
    rw [delayed_addAfter hshut]
    by_cases hdelay : delay = 0
    · rw [if_pos hdelay, if_pos (.inr hdelay), Option.toList_none, List.append_nil]
    · rw [if_neg hdelay, if_neg (not_or.2 ⟨Bool.false_ne_true, hdelay⟩), Option.toList_some]

/-- An addition without delay is made at once. -/
theorem mem_dirty_addAfter (hrunning : q.shuttingDown = false) (now : Nat) (x : ι) :
    x ∈ (q.addAfter now x 0).dirty := by
  unfold addAfter
  rw [if_neg (by simp [hrunning]), if_pos rfl]
  exact (mem_dirty_add hrunning).2 (.inl rfl)

end WorkQueue

namespace Engine

variable {σ : Type} {client : Client σ} {new : MigrationId → Prop} {e f g : Engine} {s t : σ}
  {now : Nat} {id : MigrationId}

/-! ## Passes -/

theorem pace_afterPass_ok (q : WorkQueue MigrationId) (now : Nat) (id : MigrationId) :
    (afterPass q now id (.ok ())).pace = (q.backoff, q.failures.erase id) :=
  (q.forget id).pace_done id

theorem pace_afterPass_error (q : WorkQueue MigrationId) (now : Nat) (id : MigrationId)
    (w : WriteError) : (afterPass q now id (.error w)).pace =
      (q.backoff, q.failures.insert id (keptCount (q.requeues id + 1))) :=
  ((q.addRateLimited now id).pace_done id).trans (WorkQueue.pace_addAfter _ now id _)

/-- A pass that is answered well forgets its migration and schedules nothing. -/
theorem afterPass_ok (q : WorkQueue MigrationId) (now : Nat) (id : MigrationId) :
    let r := afterPass q now id (.ok ())
    r.failures.get? id = none ∧ r.delayed = q.delayed ∧ r.dirty = q.dirty := by
  refine ⟨?_, (q.forget id).delayed_done id, (q.forget id).dirty_done id⟩
  have hfailures : (afterPass q now id (.ok ())).failures = q.failures.erase id :=
    congrArg (·.2) (pace_afterPass_ok q now id)
  rw [hfailures, Table.get?_erase, if_pos rfl]

/-- A pass that is answered with an error backs its migration off once more, by the delay for that
many failures. -/
theorem afterPass_error (q : WorkQueue MigrationId) (now : Nat) (id : MigrationId)
    (w : WriteError) :
    let r := afterPass q now id (.error w)
    let delay := q.backoff.delayFor (keptCount (q.requeues id + 1))
    r.requeues id = keptCount (q.requeues id + 1) ∧
      r.delayed = (if q.shuttingDown = true ∨ delay = 0 then q.delayed
        else q.delayed ++ [⟨now + delay, id⟩]) ∧
      (q.shuttingDown = false → delay = 0 → id ∈ r.dirty) := by
  intro r delay
  let counted := { q with failures := q.failures.insert id (keptCount (q.requeues id + 1)) }
  have hr : r = (counted.addAfter now id delay).done id := rfl
  refine ⟨?_, ?_, fun hrunning hdelay => ?_⟩
  · rw [WorkQueue.requeues_of_pace (pace_afterPass_error q now id w), Table.get?_insert, if_pos rfl]
    rfl
  · rw [hr, WorkQueue.delayed_done, WorkQueue.delayed_addAfter_eq]
  · rw [hr, WorkQueue.dirty_done, hdelay]
    exact WorkQueue.mem_dirty_addAfter (q := counted) hrunning now id

/-- A pass changes how often its own migration has been backed off, and no other. -/
theorem requeues_afterPass_of_ne (q : WorkQueue MigrationId) (now : Nat) {other : MigrationId}
    (hne : other ≠ id) (answer : Except WriteError Unit) :
    (afterPass q now id answer).requeues other = q.requeues other := by
  cases answer with
  | ok done =>
    rw [WorkQueue.requeues_of_pace (pace_afterPass_ok q now id), Table.get?_erase, if_neg hne]
    rfl
  | error w =>
    rw [WorkQueue.requeues_of_pace (pace_afterPass_error q now id w), Table.get?_insert,
      if_neg hne]
    rfl

theorem backoff_afterPass (q : WorkQueue MigrationId) (now : Nat) (id : MigrationId)
    (answer : Except WriteError Unit) : (afterPass q now id answer).backoff = q.backoff := by
  cases answer with
  | ok done => exact congrArg (·.1) (pace_afterPass_ok q now id)
  | error w => exact congrArg (·.1) (pace_afterPass_error q now id w)

/-! ## Everything but passes -/

/-- An engine that has become another one without a pass: its budget and its backoff are as before,
no item is backed off further, and a migration has failed as often as before and is executing only
if it was before, unless it has a new identifier; then its count has not come to its end. -/
structure Rests (new : MigrationId → Prop) (e f : Engine) : Prop where
  retryLimit_eq : f.retryLimit = e.retryLimit
  backoff_eq : f.queue.backoff = e.queue.backoff
  requeues_le : ∀ id, f.queue.requeues id ≤ e.queue.requeues id
  known : ∀ id m, f.registry.get? id = some m →
    new id ∧ m.writeFailures < maxCount ∨
      ∃ t, e.registry.get? id = some t ∧ t.writeFailures = m.writeFailures ∧
        (m.isTerminal = false → t.isTerminal = false)

theorem Rests.refl (new : MigrationId → Prop) (e : Engine) : Rests new e e :=
  ⟨rfl, rfl, fun _ => le_refl _, fun _ m hm => .inr ⟨m, hm, rfl, id⟩⟩

theorem Rests.trans (h : Rests new e f) (h' : Rests new f g) : Rests new e g where
  retryLimit_eq := h'.retryLimit_eq.trans h.retryLimit_eq
  backoff_eq := h'.backoff_eq.trans h.backoff_eq
  requeues_le := fun id => (h'.requeues_le id).trans (h.requeues_le id)
  known := fun id m hm => by
    rcases h'.known id m hm with hnew | ⟨t, ht, hfailures, hexecuting⟩
    · exact .inl hnew
    · rcases h.known id t ht with ⟨hnew, hcount⟩ | ⟨t', ht', hfailures', hexecuting'⟩
      · exact .inl ⟨hnew, hfailures ▸ hcount⟩
      · exact .inr ⟨t', ht', hfailures'.trans hfailures, fun hm => hexecuting' (hexecuting hm)⟩

/-- Without a change of the queue it depends on what is known. -/
theorem rests_of_queue_eq (hlimit : f.retryLimit = e.retryLimit) (hqueue : f.queue = e.queue)
    (hknown : ∀ id m, f.registry.get? id = some m →
      new id ∧ m.writeFailures < maxCount ∨
        ∃ t, e.registry.get? id = some t ∧ t.writeFailures = m.writeFailures ∧
          (m.isTerminal = false → t.isTerminal = false)) :
    Rests new e f :=
  ⟨hlimit, by rw [hqueue], fun id => by rw [hqueue], hknown⟩

/-- Without a change of the registry it depends on what is done to the queue. -/
theorem rests_of_registry_eq (op : WorkQueue.Operation MigrationId)
    (hop : ∀ now x, op ≠ .addRateLimited now x) (hlimit : f.retryLimit = e.retryLimit)
    (hregistry : f.registry = e.registry) (hqueue : f.queue = e.queue.next op) :
    Rests new e f where
  retryLimit_eq := hlimit
  backoff_eq := by rw [hqueue, WorkQueue.backoff_next hop]
  requeues_le := fun id => by
    rw [hqueue]
    exact WorkQueue.requeues_next_le hop id
  known := fun _ m hm => .inr ⟨m, hregistry ▸ hm, rfl, id⟩

theorem rests_finish (e : Engine) (id : MigrationId) (ending : Ending) :
    Rests new e { e with registry := (e.registry.finish id ending).2 } := by
  refine rests_of_queue_eq rfl rfl fun other m hm => .inr ?_
  have hm : (e.registry.finish id ending).2.get? other = some m := hm
  rw [Registry.get?_finish] at hm
  split at hm
  · obtain ⟨t, ht, rfl⟩ := Option.map_eq_some_iff.1 hm
    -- a migration that was finished just now is not executing
    exact ⟨t, ht, rfl, nofun⟩
  · exact ⟨m, hm, rfl, fun h => h⟩

theorem rests_prune (e : Engine) (policy : Retention) (now : Nat) :
    Rests new e { e with registry := (e.registry.prune policy now).2 } :=
  rests_of_queue_eq rfl rfl fun _ m hm => .inr ⟨m, Registry.get?_of_get?_prune hm, rfl, id⟩

theorem rests_register {m : Migration} (hnew : new m.id) (hcount : m.writeFailures < maxCount)
    (e : Engine) :
    Rests new e { e with registry := e.registry.register m } := by
  refine rests_of_queue_eq rfl rfl fun id t ht => ?_
  have ht : (e.registry.register m).get? id = some t := ht
  rw [Registry.get?_register] at ht
  split at ht
  · next hid =>
    obtain rfl := Option.some.inj ht
    exact .inl ⟨hid ▸ hnew, hcount⟩
  · exact .inr ⟨t, ht, rfl, fun h => h⟩

theorem Rests.of_spares {gone : List MigrationId} (h : Spares gone e f) : Rests new e f :=
  rests_of_queue_eq h.retryLimit_eq h.queue_eq fun other m hm =>
    .inr ⟨m, h.known other m hm, rfl, id⟩

/-- Whatever a submission under a new identifier makes of an engine. -/
theorem submissionLaw_rests (hnew : new id) (client : Client σ) :
    Migrator.SubmissionLaw client id (Rests new) where
  refl := .refl new
  trans := .trans
  prune := fun policy now e => rests_prune e policy now
  watch := fun _ _ _ => .of_spares (Migrator.of_watch rfl).1
  register := fun m hid hfresh e => rests_register (m := m) (hid ▸ hnew) (hfresh ▸ by decide) e
  add := fun _ => rests_of_registry_eq (.add id) nofun rfl rfl rfl

theorem rests_addAll (ids : List MigrationId) (e : Engine) :
    Rests new e { e with queue := Subscription.addAll e.queue ids } := by
  induction ids generalizing e with
  | nil => exact .refl new e
  | cons id ids ih =>
    have hadd : Rests new e { e with queue := e.queue.add id } :=
      rests_of_registry_eq (.add id) nofun rfl rfl rfl
    exact hadd.trans (ih { e with queue := e.queue.add id })

/-- Whatever an engine does on its own but finish passes. -/
theorem rests_perform {a : Activity} (hpass : ∀ worker, a ≠ .process worker)
    (h : e.perform client now a s = some (f, t)) : Rests new e f := by
  cases a with
  | deliver index =>
    obtain ⟨f', hdeliver, heq⟩ := Option.map_eq_some_iff.1 h
    cases heq
    obtain ⟨b, c, queue, -, hstep, rfl⟩ := of_deliver hdeliver
    obtain ⟨-, -, ids, rfl⟩ := Subscription.of_step? hstep
    exact (rests_addAll ids e).trans
      (rests_of_queue_eq rfl rfl fun _ m hm => .inr ⟨m, hm, rfl, id⟩)
  | process worker => exact absurd rfl (hpass worker)
  | wake worker =>
    obtain ⟨-, hresult⟩ := of_perform_wake h
    cases hresult
    unfold afterWake afterHandout
    dsimp only
    split <;> exact rests_of_registry_eq (.serve worker) nofun rfl rfl rfl
  | expire =>
    obtain ⟨queue, hexpire, heq⟩ := Option.map_eq_some_iff.1 h
    cases heq
    -- an item that is due is added, not rate-limited
    have hnext : e.queue.next (.expire now) = queue := congrArg (·.getD e.queue) hexpire
    exact rests_of_registry_eq (.expire now) nofun rfl rfl hnext.symm

theorem rests_hire (count : Nat) (e : Engine) : Rests new e (e.hire count) := by
  have hpace : (e.hire count).queue.pace = e.queue.pace := by
    unfold hire
    dsimp only
    rw [enterWorkers_eq]
    rfl
  refine ⟨rfl, congrArg (·.1) hpace, fun id => ?_, fun _ m hm => .inr ⟨m, hm, rfl, fun h => h⟩⟩
  exact (WorkQueue.requeues_of_pace hpace id).le

end Engine

/-! ## Shifts -/

/-- A migrator at work, with what the last pass over each migration was answered, if there was
one. -/
structure Shift where
  migrator : Migrator
  last : MigrationId → Option (Except WriteError Unit)

namespace Shift

variable {σ : Type} {client : Client σ} {settings : Settings} {y z : Shift} {id : MigrationId}

/-- The beginning of the work. -/
def start (settings : Settings) : Shift :=
  ⟨.start settings, fun _ => none⟩

/-- The engine that does the work. -/
def engine (y : Shift) : Engine :=
  y.migrator.engine

/-- The work after the engine has done something other than to finish a pass. -/
def withEngine (y : Shift) (engine : Engine) : Shift :=
  { y with migrator := { y.migrator with engine } }

/-- An identifier that is not known and over which no pass was run. -/
def IsNew (y : Shift) (id : MigrationId) : Prop :=
  y.engine.registry.get? id = none ∧ y.last id = none

/-- The work after a worker has run a pass over the migration that it holds. -/
def pass (client : Client σ) (now worker : Nat) (id : MigrationId) (s : σ) (y : Shift) : Shift :=
  { y.withEngine (y.engine.processHeld client now worker id s).1 with
    last := Function.update y.last id (some (y.engine.reconcile client now id s).1) }

/-- A step of the work: a worker runs a pass over the migration that it holds; a migration is
submitted, claimed or registered under a new identifier, with a count that has not come to its end;
the engine does something else on its own; anybody operates the queue, but does not rate-limit
items; a migration is ended; some are evicted; workers are hired; or the work comes to an end. -/
inductive Step (client : Client σ) (y : Shift) : Shift → Prop
  | pass (now worker : Nat) (id : MigrationId) (s : σ)
      (hholds : Worker.stateOf? y.engine.workers worker = some (.holding id)) :
      Step client y (y.pass client now worker id s)
  | submit (now : Nat) (id : MigrationId) (src dst : ResourceRef) (request : Request) (s : σ)
      (hnew : y.IsNew id) :
      Step client y
        { y with migrator := (y.migrator.submit client now id src dst request s).2.1 }
  | claim (t : Migration) (s : σ) (hnew : y.IsNew t.id) (hcount : t.writeFailures < maxCount) :
      Step client y (y.withEngine (Migrator.claim client t y.engine s).2.1)
  | register (t : Migration) (hnew : y.IsNew t.id) (hcount : t.writeFailures < maxCount) :
      Step client y (y.withEngine { y.engine with registry := y.engine.registry.register t })
  | work (now : Nat) (a : Activity) (s s' : σ) (e : Engine)
      (hpass : ∀ worker, a ≠ .process worker)
      (h : y.engine.perform client now a s = some (e, s')) : Step client y (y.withEngine e)
  | operate (op : WorkQueue.Operation MigrationId) (hop : ∀ now x, op ≠ .addRateLimited now x) :
      Step client y (y.withEngine { y.engine with queue := y.engine.queue.next op })
  | finish (id : MigrationId) (ending : Ending) :
      Step client y
        (y.withEngine { y.engine with registry := (y.engine.registry.finish id ending).2 })
  | prune (policy : Retention) (now : Nat) :
      Step client y
        (y.withEngine { y.engine with registry := (y.engine.registry.prune policy now).2 })
  | hire (count : Nat) : Step client y (y.withEngine (y.engine.hire count))
  | stop : Step client y { y with migrator := y.migrator.requestStop }
  | dismiss : Step client y { y with migrator := y.migrator.dismiss }

/-- What steps lead to from the beginning. -/
def Reachable (client : Client σ) (settings : Settings) : Shift → Prop :=
  Relation.ReflTransGen (Step client) (start settings)

/-- A step is a pass, or the engine rests. -/
theorem Step.pass_or_rests (h : Step client y z) :
    (∃ now worker id s, z = y.pass client now worker id s) ∨
      z.last = y.last ∧ Engine.Rests y.IsNew y.engine z.engine := by
  cases h with
  | pass now worker id s => exact .inl ⟨now, worker, id, s, rfl⟩
  | submit now id src dst request s hnew =>
    have hlaw := Engine.submissionLaw_rests hnew client
    exact .inr ⟨rfl, hlaw.submit now src dst request y.migrator s⟩
  | claim t s hnew hcount =>
    have hlaw := Engine.submissionLaw_rests hnew client
    exact .inr ⟨rfl, hlaw.claim rfl (Engine.rests_register hnew hcount) y.engine s⟩
  | register t hnew hcount => exact .inr ⟨rfl, Engine.rests_register hnew hcount y.engine⟩
  | work now a s s' e hpass h => exact .inr ⟨rfl, Engine.rests_perform hpass h⟩
  | operate op hop => exact .inr ⟨rfl, Engine.rests_of_registry_eq op hop rfl rfl rfl⟩
  | finish id ending => exact .inr ⟨rfl, Engine.rests_finish y.engine id ending⟩
  | prune policy now => exact .inr ⟨rfl, Engine.rests_prune y.engine policy now⟩
  | hire count => exact .inr ⟨rfl, Engine.rests_hire count y.engine⟩
  | stop => exact .inr ⟨rfl, Engine.rests_of_registry_eq .shutdown nofun rfl rfl rfl⟩
  | dismiss =>
    exact .inr ⟨rfl, Engine.rests_of_queue_eq rfl rfl fun _ m hm => .inr ⟨m, hm, rfl, id⟩⟩

/-- What holds between passes: an item is backed off as often as its migration has failed and as the
budget allows, at most, and not at all unless the last pass over it was answered with an error. The
count of an executing migration has not come to its end. -/
structure Paced (settings : Settings) (y : Shift) : Prop where
  retryLimit_eq : y.engine.retryLimit = settings.maxWriteRetries
  backoff_eq : y.engine.queue.backoff = settings.backoff
  le_budget : ∀ id, y.engine.queue.requeues id ≤ settings.maxWriteRetries
  le_failures : ∀ id m, y.engine.registry.get? id = some m →
    y.engine.queue.requeues id ≤ m.writeFailures
  lt_maxCount : ∀ id m, y.engine.registry.get? id = some m → m.isTerminal = false →
    m.writeFailures < maxCount
  last_error : ∀ id, y.engine.queue.requeues id ≠ 0 → ∃ w, y.last id = some (.error w)

theorem paced_start (settings : Settings) : Paced settings (start settings) := by
  have hrests : Engine.Rests (fun _ => False) (Engine.start Migrator.queueName settings)
      (start settings).engine := Engine.rests_hire settings.workers _
  have hzero : ∀ id, (start settings).engine.queue.requeues id = 0 := fun id =>
    Nat.le_zero.1 (hrests.requeues_le id)
  exact
    { retryLimit_eq := hrests.retryLimit_eq
      backoff_eq := hrests.backoff_eq
      le_budget := fun id => (hzero id).trans_le (Nat.zero_le _)
      le_failures := fun id m _ => (hzero id).trans_le (Nat.zero_le _)
      lt_maxCount := fun id m hm => nomatch hm
      last_error := fun id hne => absurd (hzero id) hne }

theorem Paced.rest (h : Paced settings y) (hlast : z.last = y.last)
    (hrests : Engine.Rests y.IsNew y.engine z.engine) : Paced settings z where
  retryLimit_eq := hrests.retryLimit_eq.trans h.retryLimit_eq
  backoff_eq := hrests.backoff_eq.trans h.backoff_eq
  le_budget := fun id => (hrests.requeues_le id).trans (h.le_budget id)
  le_failures := fun id m hm => by
    refine (hrests.requeues_le id).trans ?_
    rcases hrests.known id m hm with ⟨hnew, -⟩ | ⟨t, ht, hfailures, -⟩
    · -- nobody has backed off a new item
      have hzero : y.engine.queue.requeues id = 0 := by
        by_contra hne
        obtain ⟨w, hw⟩ := h.last_error id hne
        rw [hnew.2] at hw
        cases hw
      rw [hzero]
      exact Nat.zero_le _
    · rw [← hfailures]
      exact h.le_failures id t ht
  lt_maxCount := fun id m hm hexecuting => by
    rcases hrests.known id m hm with ⟨-, hcount⟩ | ⟨t, ht, hfailures, hbefore⟩
    · exact hcount
    · exact hfailures ▸ h.lt_maxCount id t ht (hbefore hexecuting)
  last_error := fun id hne => by
    rw [hlast]
    refine h.last_error id fun hzero => hne ?_
    exact Nat.le_zero.1 ((hrests.requeues_le id).trans hzero.le)

/-- A pass is answered well, and its migration is forgotten, or it is answered with an error, and
its migration was executing, still is, and is backed off once more, as often as it has failed at
most. -/
theorem Paced.pass_cases (h : Paced settings y) (hlimit : settings.maxWriteRetries < maxCount)
    (client : Client σ) (now worker : Nat) (id : MigrationId) (s : σ) :
    let e := (y.pass client now worker id s).engine
    ((y.engine.reconcile client now id s).1 = .ok () ∧ e.queue.requeues id = 0) ∨
      ∃ w t, (y.engine.reconcile client now id s).1 = .error w ∧
        y.engine.registry.Executing id ∧ e.registry.get? id = some t ∧ t.isTerminal = false ∧
        e.queue.requeues id = y.engine.queue.requeues id + 1 ∧
        e.queue.requeues id ≤ t.writeFailures ∧ t.writeFailures ≤ settings.maxWriteRetries := by
  intro e
  have hqueue : e.queue.requeues id = (Engine.afterPass y.engine.queue now id
      (y.engine.reconcile client now id s).1).requeues id := rfl
  cases hanswer : (y.engine.reconcile client now id s).1 with
  | ok done =>
    refine .inl ⟨rfl, ?_⟩
    rw [hqueue, hanswer]
    unfold WorkQueue.requeues
    rw [(Engine.afterPass_ok y.engine.queue now id).1]
    rfl
  | error w =>
    rw [hanswer, (Engine.afterPass_error y.engine.queue now id w).1] at hqueue
    obtain ⟨m, t, hm, hbefore, ht, hexecuting, hcount, hbudget⟩ :=
      Registry.of_reconcile_eq_error hanswer
    -- both counters have gone up by one, and neither has come to its end
    have hle := h.le_failures id m hm
    have hlt := h.lt_maxCount id m hm hbefore
    rw [h.retryLimit_eq] at hbudget
    rw [keptCount_of_le (by omega)] at hcount hqueue
    exact .inr ⟨w, t, rfl, ⟨m, hm, hbefore⟩, ht, hexecuting, hqueue, by omega, hbudget⟩

theorem Paced.pass (h : Paced settings y) (hlimit : settings.maxWriteRetries < maxCount)
    (client : Client σ) (now worker : Nat) (id : MigrationId) (s : σ) :
    Paced settings (y.pass client now worker id s) := by
  have hcases := h.pass_cases hlimit client now worker id s
  -- other migrations are as they were
  have hqueue : ∀ other, other ≠ id → (y.pass client now worker id s).engine.queue.requeues other =
      y.engine.queue.requeues other := fun other hne =>
    Engine.requeues_afterPass_of_ne y.engine.queue now hne _
  have hget : ∀ other, other ≠ id → (y.pass client now worker id s).engine.registry.get? other =
      y.engine.registry.get? other := fun other hne =>
    (Registry.get?_reconcile y.engine.registry client _ now id other s).trans (if_neg hne)
  have hlast : ∀ other, other ≠ id → (y.pass client now worker id s).last other = y.last other :=
    fun other hne => Function.update_of_ne hne _ _
  refine ⟨h.retryLimit_eq, ?_, fun other => ?_, fun other m hm => ?_,
    fun other t ht hexecuting => ?_, fun other hother => ?_⟩
  · exact (Engine.backoff_afterPass y.engine.queue now id _).trans h.backoff_eq
  · by_cases hid : other = id
    · subst hid
      rcases hcases with ⟨-, hzero⟩ | ⟨w, t, -, -, -, -, -, hfailures, hbudget⟩
      · rw [hzero]
        exact Nat.zero_le _
      · exact hfailures.trans hbudget
    · rw [hqueue other hid]
      exact h.le_budget other
  · by_cases hid : other = id
    · subst hid
      rcases hcases with ⟨-, hzero⟩ | ⟨w, t, -, -, ht, -, -, hfailures, -⟩
      · rw [hzero]
        exact Nat.zero_le _
      · obtain rfl := Option.some.inj (hm.symm.trans ht)
        exact hfailures
    · rw [hget other hid] at hm
      rw [hqueue other hid]
      exact h.le_failures other m hm
  · by_cases hid : other = id
    · subst hid
      have hlimit' : y.engine.retryLimit < maxCount := h.retryLimit_eq ▸ hlimit
      exact Registry.writeFailures_lt_of_reconcile hlimit' (h.lt_maxCount other) ht hexecuting
    · rw [hget other hid] at ht
      exact h.lt_maxCount other t ht hexecuting
  · by_cases hid : other = id
    · subst hid
      rcases hcases with ⟨-, hzero⟩ | ⟨w, t, hanswer, -⟩
      · exact absurd hzero hother
      · exact ⟨w, (Function.update_self ..).trans (congrArg some hanswer)⟩
    · rw [hqueue other hid] at hother
      rw [hlast other hid]
      exact h.last_error other hother

theorem Reachable.paced (h : Reachable client settings y)
    (hlimit : settings.maxWriteRetries < maxCount) : Paced settings y := by
  induction h with
  | refl => exact paced_start settings
  | tail _ hstep ih =>
    rcases hstep.pass_or_rests with ⟨now, worker, id, s, rfl⟩ | ⟨hlast, hrests⟩
    · exact ih.pass hlimit client now worker id s
    · exact ih.rest hlast hrests

/-- If the budget is not the greatest one: whatever steps have led to, between passes a migration is
backed off as often as it has failed and as the budget allows, at most, and not at all unless the
last pass over it was answered with an error. A pass that is answered with an error schedules
another one, after the delay for a number of failures within the budget; one that is answered well
schedules nothing, and no backoff of its migration is left. A pass is answered well if its migration
was not executing, or not known, or is not any more. -/
theorem backoff_within_budget (h : Reachable client settings y)
    (hlimit : settings.maxWriteRetries < maxCount) :
    (∀ id, y.engine.queue.requeues id ≤ settings.maxWriteRetries ∧
      (∀ m, y.engine.registry.get? id = some m →
        y.engine.queue.requeues id ≤ m.writeFailures) ∧
      (y.engine.queue.requeues id ≠ 0 → ∃ w, y.last id = some (.error w))) ∧
    ∀ now worker id s,
      let q := y.engine.queue
      let answer := (y.engine.reconcile client now id s).1
      let f := (y.engine.processHeld client now worker id s).1
      (∀ w, answer = .error w → ∃ k, 1 ≤ k ∧ k ≤ settings.maxWriteRetries ∧
        f.queue.requeues id = k ∧
        f.queue.delayed = (if q.shuttingDown = true ∨ settings.backoff.delayFor k = 0 then q.delayed
          else q.delayed ++ [⟨now + settings.backoff.delayFor k, id⟩]) ∧
        (q.shuttingDown = false → settings.backoff.delayFor k = 0 → id ∈ f.queue.dirty)) ∧
      (answer = .ok () → f.queue.failures.get? id = none ∧ f.queue.delayed = q.delayed ∧
        f.queue.dirty = q.dirty) ∧
      (¬ y.engine.registry.Executing id ∨ ¬ f.registry.Executing id → answer = .ok ()) := by
  have hpaced := h.paced hlimit
  refine ⟨fun id => ⟨hpaced.le_budget id, hpaced.le_failures id, hpaced.last_error id⟩,
    fun now worker id s => ?_⟩
  intro q answer f
  have hfailures : f.queue.failures = (Engine.afterPass q now id answer).failures := rfl
  have hdelayed : f.queue.delayed = (Engine.afterPass q now id answer).delayed := rfl
  have hdirty : f.queue.dirty = (Engine.afterPass q now id answer).dirty := rfl
  rw [hfailures, hdelayed, hdirty]
  -- the queue after the pass is that of `afterPass`, with one more getter
  rcases hpaced.pass_cases hlimit client now worker id s with
    ⟨hanswer, -⟩ | ⟨w, t, hanswer, hbefore, ht, hexecuting, hcount, hle, hbudget⟩
  · rw [show answer = .ok () from hanswer]
    exact ⟨nofun, fun _ => Engine.afterPass_ok q now id, fun _ => rfl⟩
  · rw [show answer = .error w from hanswer]
    obtain ⟨-, hput, hadded⟩ := Engine.afterPass_error q now id w
    have hle' : q.requeues id + 1 ≤ maxCount := (hcount ▸ hle.trans hbudget).trans hlimit.le
    rw [show q.backoff = settings.backoff from hpaced.backoff_eq, keptCount_of_le hle']
      at hput hadded
    refine ⟨fun _ _ => ⟨q.requeues id + 1, Nat.le_add_left 1 _, ?_, hcount, hput, hadded⟩, nofun,
      fun hnot => ?_⟩
    · exact hcount ▸ hle.trans hbudget
    · rcases hnot with hnot | hnot
      · exact absurd hbefore hnot
      · exact absurd ⟨t, ht, hexecuting⟩ hnot

/-- A write fails, an early wake-up leads to a pass that waits, and then the delay is over: the
migration has failed once, but is not backed off any more. So when the next write fails, the
migration has failed twice, and is tried again after the shortest delay. -/
theorem backoff_within_budget_after_wait :
    let web : ResourceRef := .of .deployment "default" "web"
    let webCs : ResourceRef := .of .cloneSet "default" "web-cs"
    let t : Migration := .start ⟨7⟩ web webCs .deploymentToCloneSet ⟨2, 1, none⟩ ⟨1, 1⟩ 0
    let filled := ((Platform.empty 4).put
      ((Workload.named .deployment "default" "web").withReplicas (some 2))).2.put
      (Workload.named .cloneSet "default" "web-cs")
    let unseen := filled.2
    let failing := unseen.settleAll.2.failNextUpdates (.unavailable "down") 1
    let settings := { Settings.default with workers := 1, maxWriteRetries := 2, backoff := ⟨5, 90⟩ }
    let operated (op : WorkQueue.Operation MigrationId) (y : Shift) : Shift :=
      y.withEngine { y.engine with queue := y.engine.queue.next op }
    let woken (y : Shift) : Shift := y.withEngine (y.engine.afterWake 0)
    let registered := (start settings).withEngine
      { (start settings).engine with registry := (start settings).engine.registry.register t }
    let refused := (woken (operated (.add ⟨7⟩) registered)).pass Platform.client 10 0 ⟨7⟩ failing
    let waited := (woken (operated (.add ⟨7⟩) refused)).pass Platform.client 12 0 ⟨7⟩ unseen
    let y := woken (operated (.expire 15) waited)
    Reachable Platform.client settings y ∧ y.last ⟨7⟩ = some (.ok ()) ∧
      (y.engine.registry.get? ⟨7⟩).map (·.writeFailures) = some 1 ∧
      (y.engine.reconcile Platform.client 20 ⟨7⟩ failing).1 =
        .error ⟨webCs, 2, .unavailable "down"⟩ ∧
      (y.engine.processHeld Platform.client 20 0 ⟨7⟩ failing).1.queue.requeues ⟨7⟩ = 1 ∧
      (y.engine.processHeld Platform.client 20 0 ⟨7⟩ failing).1.queue.delayed = [⟨25, ⟨7⟩⟩] := by
  intro web webCs t filled unseen failing settings operated woken registered refused waited y
  have hadded : ∀ {y}, Reachable Platform.client settings y →
      Reachable Platform.client settings (operated (.add ⟨7⟩) y) :=
    fun hy => hy.tail (.operate (.add ⟨7⟩) nofun)
  have hwoken : ∀ {y}, Reachable Platform.client settings y →
      0 ∈ y.engine.queue.wakeups.ready → Reachable Platform.client settings (woken y) :=
    fun hy hready => hy.tail (.work 0 (.wake 0) unseen unseen _ nofun (if_pos hready))
  have hregistered : Reachable Platform.client settings registered :=
    .tail .refl (.register t ⟨rfl, rfl⟩ (by decide))
  have hrefused : Reachable Platform.client settings refused :=
    (hwoken (hadded hregistered) (by decide +kernel)).tail
      (.pass 10 0 ⟨7⟩ failing (by decide +kernel))
  have hwaited : Reachable Platform.client settings waited :=
    (hwoken (hadded hrefused) (by decide +kernel)).tail
      (.pass 12 0 ⟨7⟩ unseen (by decide +kernel))
  -- the delay of the first failure is over only now
  have hy : Reachable Platform.client settings y :=
    hwoken (hwaited.tail (.operate (.expire 15) nofun)) (by decide +kernel)
  have hanswer : (y.engine.reconcile Platform.client 20 ⟨7⟩ failing).1 =
      .error ⟨webCs, 2, .unavailable "down"⟩ := by decide +kernel
  obtain ⟨k, -, -, hk, hdelayed, -⟩ :=
    ((backoff_within_budget hy (by decide)).2 20 0 ⟨7⟩ failing).1 _ hanswer
  obtain rfl : k = 1 := by
    rw [← hk]
    decide +kernel
  have hempty : y.engine.queue.delayed = [] :=
    List.eq_nil_of_length_eq_zero (by decide +kernel)
  have hput : ¬ (y.engine.queue.shuttingDown = true ∨ settings.backoff.delayFor 1 = 0) := by
    decide +kernel
  have hdelay : settings.backoff.delayFor 1 = 5 := by decide +kernel
  rw [if_neg hput, hempty, hdelay] at hdelayed
  exact ⟨hy, by decide +kernel, by decide +kernel, hanswer, hk, hdelayed⟩

/-- A migration that is registered with the greatest count of failed writes has, after one more, a
count of zero, and yet it is backed off once. And if somebody other than the workers runs the pass
that ends a series of failures, the count starts anew and the last pass was answered well, but the
queue still remembers the backoff. -/
theorem backoff_may_outlast_failures :
    let web : ResourceRef := .of .deployment "default" "web"
    let webCs : ResourceRef := .of .cloneSet "default" "web-cs"
    let t : Migration := .start ⟨7⟩ web webCs .deploymentToCloneSet ⟨2, 1, none⟩ ⟨1, 1⟩ 0
    let filled := ((Platform.empty 4).put
      ((Workload.named .deployment "default" "web").withReplicas (some 2))).2.put
      (Workload.named .cloneSet "default" "web-cs")
    let settled := filled.2.settleAll.2
    let failing := settled.failNextUpdates (.unavailable "down") 1
    let settings (budget : Nat) := { Settings.default with workers := 1, maxWriteRetries := budget }
    let registered (budget failures : Nat) : Shift := (start (settings budget)).withEngine
      { (start (settings budget)).engine with
        registry := Registry.empty.register (t.withWriteFailures failures) }
    let refused (budget failures : Nat) : Shift :=
      let y := registered budget failures
      let added := { y.engine with queue := y.engine.queue.add ⟨7⟩ }
      (y.withEngine (added.afterWake 0)).pass Platform.client 10 0 ⟨7⟩ failing
    let worn := refused maxCount maxCount
    let y := refused 5 0
    let direct := y.engine.reconcile Platform.client 12 ⟨7⟩ settled
    (worn.last ⟨7⟩ = some (.error ⟨webCs, 0, .unavailable "down"⟩) ∧
      (worn.engine.registry.get? ⟨7⟩).map (·.writeFailures) = some 0 ∧
      worn.engine.queue.requeues ⟨7⟩ = 1) ∧
    y.last ⟨7⟩ = some (.error ⟨webCs, 1, .unavailable "down"⟩) ∧ direct.1 = .ok () ∧
      (direct.2.1.registry.get? ⟨7⟩).map (·.writeFailures) = some 0 ∧
      direct.2.1.queue.requeues ⟨7⟩ = 1 := by
  decide +kernel

end Shift

end Handover
