import Handover.Proofs.Engine.Submission
import Handover.Proofs.Queue.History

/-!
# Engines that were told to stop

Whether an engine was told to stop, and whether its workers and subscriptions are counted, is
changed by nothing that it does and by no submission (`Keeps`). All that an engine can do once it
was told to stop is said by `Parting`: a subscription ends, a worker finishes the pass that it is in
or goes, or a delayed item is dropped. The workers of a `Leaving` engine are on their way out. When
all of them are gone the engine is `Deserted`, and then nothing that is left to do changes its
registry or the state of a client, and no claim makes anything pending. When its subscriptions have
ended as well it is `Stopped`.
-/

namespace Handover

/-- A subscription that takes a step follows its kind and is counted as before, and it only makes
migrations pending. -/
theorem Subscription.of_step? {σ : Type} {client : Client σ} {stopped : Bool} {g : Registry}
    {queue rest : WorkQueue MigrationId} {s : σ} {b c : Subscription}
    (h : b.step? client stopped g queue s = some (c, rest)) :
    c.kind = b.kind ∧ c.held = b.held ∧ ∃ ids, rest = addAll queue ids := by
  unfold step? at h
  split at h
  · cases h
  split at h
  · cases h
    exact ⟨rfl, rfl, [], rfl⟩
  split at h <;> cases h
  · exact ⟨rfl, rfl, [], rfl⟩
  · exact ⟨rfl, rfl, _, rfl⟩
  · exact ⟨rfl, rfl, _, rfl⟩

namespace Engine

open Worker (stateOf?)

variable {σ : Type} {client : Client σ} {e f g : Engine} {s t : σ} {now n : Nat}
  {id : MigrationId}

/-! ## What stays as it is -/

/-- An engine that has become another one, which was told to stop just if the first one was, and all
whose workers and subscriptions are counted if those of the first one were. -/
structure Keeps (e f : Engine) : Prop where
  stop_eq : f.stop = e.stop
  shuttingDown_eq : f.queue.shuttingDown = e.queue.shuttingDown
  workers_held : (∀ w ∈ e.workers, w.held = true) → ∀ w ∈ f.workers, w.held = true
  subscriptions_held : (∀ b ∈ e.subscriptions, b.held = true) →
    ∀ b ∈ f.subscriptions, b.held = true

theorem Keeps.refl (e : Engine) : e.Keeps e :=
  ⟨rfl, rfl, fun h => h, fun h => h⟩

theorem Keeps.trans (h : e.Keeps f) (h' : f.Keeps g) : e.Keeps g where
  stop_eq := h'.stop_eq.trans h.stop_eq
  shuttingDown_eq := h'.shuttingDown_eq.trans h.shuttingDown_eq
  workers_held := fun hheld => h'.workers_held (h.workers_held hheld)
  subscriptions_held := fun hheld => h'.subscriptions_held (h.subscriptions_held hheld)

theorem keeps_withRegistry (e : Engine) (registry : Registry) : e.Keeps { e with registry } :=
  ⟨rfl, rfl, fun h => h, fun h => h⟩

theorem keeps_withQueue {queue : WorkQueue MigrationId}
    (h : queue.shuttingDown = e.queue.shuttingDown) : e.Keeps { e with queue } :=
  ⟨rfl, h, fun h => h, fun h => h⟩

theorem keeps_setWorker (e : Engine) (n : Nat) (state : WorkerState) :
    e.Keeps (e.setWorker n state) := by
  refine ⟨rfl, rfl, fun hheld w hw => ?_, fun h => h⟩
  obtain ⟨i, hi⟩ := List.mem_iff_getElem?.1 hw
  have hi : (e.workers.modify n ({ · with state }))[i]? = some w := hi
  rw [List.getElem?_modify] at hi
  obtain ⟨v, hv, rfl⟩ := Option.map_eq_some_iff.1 hi
  have hv := hheld v (List.mem_of_getElem? hv)
  split
  · exact hv
  · exact hv

theorem keeps_deliver {index : Nat} (h : e.deliver client index s = some f) : e.Keeps f := by
  obtain ⟨b, c, queue, hb, hstep, rfl⟩ := of_deliver h
  obtain ⟨-, hc, ids, rfl⟩ := Subscription.of_step? hstep
  refine ⟨rfl, Subscription.shuttingDown_addAll e.queue ids, fun h => h, fun hheld d hd => ?_⟩
  rcases List.mem_or_eq_of_mem_set hd with hd | rfl
  · exact hheld d hd
  · rw [hc]
    exact hheld b (List.mem_of_getElem? hb)

theorem shuttingDown_afterPass (q : WorkQueue MigrationId) (now : Nat) (id : MigrationId)
    (answer : Except WriteError Unit) :
    (afterPass q now id answer).shuttingDown = q.shuttingDown := by
  cases answer with
  | ok => exact (q.forget id).shuttingDown_done id
  | error e =>
    have hadd : (q.next (.addRateLimited now id)).shuttingDown = q.shuttingDown :=
      WorkQueue.shuttingDown_next nofun
    exact ((q.addRateLimited now id).shuttingDown_done id).trans hadd

theorem keeps_processHeld (client : Client σ) (now n : Nat) (id : MigrationId) (e : Engine)
    (s : σ) : e.Keeps (e.processHeld client now n id s).1 := by
  have hverdict (v : Verdict) : e.Keeps (e.afterVerdict now n id v) := by
    have hqueue := shuttingDown_afterPass e.queue now id v.answer
    have hset := keeps_setWorker e n .idle
    exact ⟨rfl, hqueue, hset.workers_held, fun h => h⟩
  rw [processHeld_eq]
  cases e.registry.get? id with
  | none => exact hverdict .unchanged
  | some m => exact hverdict _

theorem keeps_afterWake (e : Engine) (n : Nat) : e.Keeps (e.afterWake n) := by
  have hserve : (e.queue.next (.serve n)).shuttingDown = e.queue.shuttingDown :=
    WorkQueue.shuttingDown_next nofun
  unfold afterWake afterHandout
  dsimp only
  split
  · exact (keeps_withQueue hserve).trans (keeps_setWorker _ n _)
  · exact (keeps_withQueue hserve).trans (keeps_setWorker _ n _)
  · exact keeps_withQueue hserve

/-- Whatever an engine does, it was told to stop or not as before. -/
theorem keeps_perform {a : Activity} (h : e.perform client now a s = some (f, t)) : e.Keeps f := by
  cases a with
  | deliver index =>
    obtain ⟨f', hdeliver, heq⟩ := Option.map_eq_some_iff.1 h
    cases heq
    exact keeps_deliver hdeliver
  | process n =>
    obtain ⟨id, -, hresult⟩ := of_perform_process h
    have hkeeps := keeps_processHeld client now n id e s
    rwa [hresult] at hkeeps
  | wake n =>
    obtain ⟨-, hresult⟩ := of_perform_wake h
    cases hresult
    exact keeps_afterWake e n
  | expire =>
    obtain ⟨queue, hexpire, heq⟩ := Option.map_eq_some_iff.1 h
    cases heq
    have hqueue : (e.queue.next (.expire now)).shuttingDown = e.queue.shuttingDown :=
      WorkQueue.shuttingDown_next nofun
    have hnext : e.queue.next (.expire now) = queue := congrArg (·.getD e.queue) hexpire
    exact keeps_withQueue (hnext ▸ hqueue)

theorem keeps_watch (client : Client σ) (kind : WorkloadKind) (e : Engine) (s : σ) :
    e.Keeps (Migrator.watch client kind e s).2.1 := by
  unfold Migrator.watch subscribe
  split
  · exact .refl e
  · rcases client.watch kind s with ⟨err | receiver, s'⟩
    · exact .refl e
    · refine ⟨rfl, rfl, fun h => h, fun hheld b hb => ?_⟩
      rcases List.mem_append.1 hb with hb | hb
      · exact hheld b hb
      · rw [List.mem_singleton.1 hb]
        rfl

/-- Whatever a submission makes of an engine, it was told to stop or not as before. -/
theorem submissionLaw_keeps (client : Client σ) (id : MigrationId) :
    Migrator.SubmissionLaw client id Keeps where
  refl := .refl
  trans := .trans
  prune := fun _ _ e => keeps_withRegistry e _
  watch := keeps_watch client
  register := fun _ _ _ e => keeps_withRegistry e _
  add := fun e => keeps_withQueue (e.queue.shuttingDown_add id)

theorem keeps_claim (client : Client σ) (m : Migration) (e : Engine) (s : σ) :
    e.Keeps (Migrator.claim client m e s).2.1 :=
  (submissionLaw_keeps client m.id).claim rfl (fun e => keeps_withRegistry e _) e s

theorem keeps_submit (client : Client σ) (now : Nat) (id : MigrationId) (src dst : ResourceRef)
    (request : Request) (m : Migrator) (s : σ) :
    m.engine.Keeps (m.submit client now id src dst request s).2.1.engine :=
  (submissionLaw_keeps client id).submit now src dst request m s

/-! ## Parting -/

/-- An engine that was told to stop. -/
structure Told (e : Engine) : Prop where
  stopped : e.stop.stopped = true
  shuttingDown : e.queue.shuttingDown = true

theorem told_requestStop (e : Engine) : e.requestStop.Told :=
  ⟨rfl, rfl⟩

theorem Told.of_keeps (h : e.Told) (hkeeps : e.Keeps f) : f.Told :=
  ⟨hkeeps.stop_eq ▸ h.stopped, hkeeps.shuttingDown_eq.trans h.shuttingDown⟩

/-- All that becomes of an engine that was told to stop, and of the state of a client: a
subscription ends, a worker finishes the pass that it is in, a worker that is awake goes, or a
delayed item is dropped. -/
inductive Parting (e : Engine) (s : σ) : Engine → σ → Prop
  | ends (index : Nat) (b : Subscription) (hb : e.subscriptions[index]? = some b)
      (hrunning : b.ended = false) :
      Parting e s
        { e with subscriptions := e.subscriptions.set index { b with ended := true } } s
  | finishes (n : Nat) (id : MigrationId) (hholds : stateOf? e.workers n = some (.holding id))
      (now : Nat) (v : Verdict) (failures : Table MigrationId Nat) (t : σ) :
      Parting e s
        { e with
          registry := e.registry.record id now v
          queue := { e.queue with
            processing := e.queue.processing.erase id
            failures
            wakeups := e.queue.wakeups.enter n }
          workers := Worker.set e.workers n .idle } t
  | goes (n : Nat) (hn : n ∈ e.queue.wakeups.ready) :
      Parting e s
        { e with
          queue := { e.queue with
            wakeups := ⟨e.queue.wakeups.sleeping, e.queue.wakeups.ready.erase n, false⟩ }
          workers := Worker.set e.workers n .gone } s
  | drops (d : Delayed MigrationId) (rest : List (Delayed MigrationId))
      (hperm : e.queue.delayed.Perm (d :: rest)) :
      Parting e s { e with queue := { e.queue with delayed := rest } } s

/-- After a pass a queue that has been shut down only stops processing the item. -/
theorem afterPass_of_shuttingDown {q : WorkQueue MigrationId} (h : q.shuttingDown = true)
    (now : Nat) (id : MigrationId) (answer : Except WriteError Unit) :
    ∃ failures, afterPass q now id answer =
      { q with processing := q.processing.erase id, failures } := by
  cases answer with
  | ok => exact ⟨q.failures.erase id, (q.forget id).done_of_shuttingDown h id⟩
  | error e =>
    refine ⟨q.failures.insert id (keptCount (q.requeues id + 1)), ?_⟩
    unfold afterPass
    dsimp only
    rw [WorkQueue.addRateLimited_of_shuttingDown h]
    exact WorkQueue.done_of_shuttingDown
      (q := { q with failures := q.failures.insert id (keptCount (q.requeues id + 1)) }) h id

/-- A worker that finishes a pass records its verdict and is idle then. -/
theorem Told.parting_processHeld (h : e.Told) (hholds : stateOf? e.workers n = some (.holding id))
    (hresult : e.processHeld client now n id s = (f, t)) : Parting e s f t := by
  have hverdict (v : Verdict) (t : σ) : Parting e s (e.afterVerdict now n id v) t := by
    obtain ⟨failures, hqueue⟩ := afterPass_of_shuttingDown h.shuttingDown now id v.answer
    unfold afterVerdict
    rw [hqueue]
    exact .finishes n id hholds now v failures t
  rw [processHeld_eq] at hresult
  cases hm : e.registry.get? id with
  | none =>
    rw [hm] at hresult
    cases hresult
    exact hverdict .unchanged s
  | some m =>
    rw [hm] at hresult
    cases hresult
    exact hverdict _ _

/-- A worker that runs at a queue that has been shut down goes. -/
theorem Told.afterWake_eq (h : e.Told) (n : Nat) :
    e.afterWake n =
      { e with
        queue := { e.queue with
          wakeups := ⟨e.queue.wakeups.sleeping, e.queue.wakeups.ready.erase n, false⟩ }
        workers := Worker.set e.workers n .gone } := by
  unfold afterWake
  rw [WorkQueue.serve_of_shuttingDown h.shuttingDown]
  rfl

/-- Whatever an engine does after it was told to stop is one of the ways of parting. -/
theorem Told.parting (h : e.Told) {a : Activity}
    (hperform : e.perform client now a s = some (f, t)) : Parting e s f t := by
  cases a with
  | deliver index =>
    obtain ⟨f', hdeliver, heq⟩ := Option.map_eq_some_iff.1 hperform
    cases heq
    obtain ⟨b, c, queue, hb, hstep, rfl⟩ := of_deliver hdeliver
    -- a subscription looks at the signal before it looks at the events
    unfold Subscription.step? at hstep
    rw [h.stopped] at hstep
    split at hstep
    · cases hstep
    · next hrunning =>
      cases hstep
      exact .ends index b hb (Bool.eq_false_iff.2 hrunning)
  | process n =>
    obtain ⟨id, hholds, hresult⟩ := of_perform_process hperform
    exact h.parting_processHeld hholds hresult
  | wake n =>
    obtain ⟨hn, hresult⟩ := of_perform_wake hperform
    cases hresult
    rw [h.afterWake_eq]
    exact .goes n hn
  | expire =>
    obtain ⟨queue, hexpire, heq⟩ := Option.map_eq_some_iff.1 hperform
    cases heq
    obtain ⟨⟨d, rest⟩, hsplit, rfl⟩ := Option.map_eq_some_iff.1 hexpire
    dsimp only
    rw [WorkQueue.add_of_shuttingDown (q := { e.queue with delayed := rest }) h.shuttingDown]
    exact .drops d rest (WorkQueue.of_splitDue?_eq_some hsplit).2

/-! ## Leaving -/

/-- An engine that was told to stop, and whose idle workers are awake to hear of it. -/
structure Leaving (e : Engine) : Prop extends e.Told where
  ready_nodup : e.queue.wakeups.ready.Nodup
  mem_ready_iff : ∀ n, n ∈ e.queue.wakeups.ready ↔ stateOf? e.workers n = some .idle

/-- When an engine at work is told to stop all its idle workers are woken. -/
theorem Vigilant.leaving_requestStop {p : Platform} {seen : Nat → List Platform}
    (h : e.Vigilant p seen) : e.requestStop.Leaving :=
  ⟨e.told_requestStop, h.staffed.waiting_nodup, h.staffed.mem_waiting_iff⟩

theorem Leaving.after_parting (h : e.Leaving) (hparting : Parting e s f t) : f.Leaving := by
  cases hparting with
  | ends index b hb hrunning => exact ⟨⟨h.stopped, h.shuttingDown⟩, h.ready_nodup, h.mem_ready_iff⟩
  | finishes n id hholds now v failures t =>
    -- the worker was not awake, so it is there once when it enters
    have hn : n ∉ e.queue.wakeups.ready := fun hn => by
      have hidle := (h.mem_ready_iff n).1 hn
      rw [hholds] at hidle
      cases hidle
    refine ⟨⟨h.stopped, h.shuttingDown⟩, ?_, fun k => ?_⟩
    · show (e.queue.wakeups.ready ++ [n]).Nodup
      refine List.nodup_append.2 ⟨h.ready_nodup, List.nodup_singleton n, fun k hk j hj => ?_⟩
      rw [List.mem_singleton.1 hj]
      exact ne_of_mem_of_not_mem hk hn
    · show k ∈ e.queue.wakeups.ready ++ [n] ↔ stateOf? (Worker.set e.workers n .idle) k = some .idle
      rw [List.mem_append, List.mem_singleton, h.mem_ready_iff]
      by_cases hk : k = n
      · rw [hk, Worker.stateOf?_set_self hholds]
        exact ⟨fun _ => rfl, fun _ => .inr rfl⟩
      · rw [Worker.stateOf?_set_of_ne _ hk, or_iff_left hk]
  | goes n hn =>
    refine ⟨⟨h.stopped, h.shuttingDown⟩, h.ready_nodup.erase n, fun k => ?_⟩
    show k ∈ e.queue.wakeups.ready.erase n ↔ stateOf? (Worker.set e.workers n .gone) k = some .idle
    rw [h.ready_nodup.mem_erase_iff, h.mem_ready_iff]
    by_cases hk : k = n
    · rw [hk, Worker.stateOf?_set_self ((h.mem_ready_iff n).1 hn)]
      exact ⟨fun hne => absurd rfl hne.1, nofun⟩
    · rw [Worker.stateOf?_set_of_ne _ hk]
      exact and_iff_right hk
  | drops d rest hperm => exact ⟨⟨h.stopped, h.shuttingDown⟩, h.ready_nodup, h.mem_ready_iff⟩

/-- A migration that no worker is at work on, as it was in an earlier engine. -/
def Unheld (e : Engine) (id : MigrationId) : Prop :=
  ∀ n, stateOf? e.workers n ≠ some (.holding id)

/-- While workers leave they take no migration, and what none of them holds stays as it is. -/
theorem Parting.unheld (hparting : Parting e s f t) (h : e.Unheld id) :
    f.Unheld id ∧ f.registry.get? id = e.registry.get? id := by
  cases hparting with
  | ends index b hb hrunning => exact ⟨h, rfl⟩
  | finishes n held hholds now v failures t =>
    have hne : id ≠ held := fun heq => h n (heq ▸ hholds)
    refine ⟨fun k hk => ?_, ?_⟩
    · rcases Worker.of_stateOf?_set hk with ⟨-, hstate⟩ | ⟨-, hk⟩
      · cases hstate
      · exact h k hk
    · exact (e.registry.get?_record held id now v).trans (if_neg hne)
  | goes n hn =>
    refine ⟨fun k hk => ?_, rfl⟩
    rcases Worker.of_stateOf?_set hk with ⟨-, hstate⟩ | ⟨-, hk⟩
    · cases hstate
    · exact h k hk
  | drops d rest hperm => exact ⟨h, rfl⟩

/-! ## Deserted engines -/

/-- An engine that was told to stop and that its workers have left. -/
structure Deserted (e : Engine) : Prop extends e.Told where
  gone : ∀ n state, stateOf? e.workers n = some state → state = .gone

/-- What is left to do in a deserted engine leaves it deserted, changes neither its registry nor the
state of a client, and makes nothing pending. -/
theorem Deserted.after_parting (h : e.Deserted) (hparting : Parting e s f t) :
    f.Deserted ∧ f.registry = e.registry ∧ f.queue.pending = e.queue.pending ∧ t = s := by
  cases hparting with
  | ends index b hb hrunning => exact ⟨⟨⟨h.stopped, h.shuttingDown⟩, h.gone⟩, rfl, rfl, rfl⟩
  | finishes n id hholds now v failures t => cases h.gone n _ hholds
  | goes n hn =>
    refine ⟨⟨⟨h.stopped, h.shuttingDown⟩, fun k state hk => ?_⟩, rfl, rfl, rfl⟩
    rcases Worker.of_stateOf?_set hk with ⟨-, hstate⟩ | ⟨-, hk⟩
    · exact hstate
    · exact h.gone k state hk
  | drops d rest hperm => exact ⟨⟨⟨h.stopped, h.shuttingDown⟩, h.gone⟩, rfl, rfl, rfl⟩

/-- An engine that is deserted stays so when it is told to stop again. -/
theorem Deserted.requestStop (h : e.Deserted) : e.requestStop.Deserted :=
  ⟨e.told_requestStop, h.gone⟩

/-- An engine that is deserted stays so when its workers and subscriptions are no longer counted. -/
theorem Deserted.dismiss (h : e.Deserted) : e.dismissWorkers.dismissSubscriptions.Deserted := by
  refine ⟨⟨h.stopped, h.shuttingDown⟩, fun n state hn => h.gone n state (hn ▸ ?_)⟩
  show stateOf? e.workers n = stateOf? (e.workers.map ({ · with held := false })) n
  unfold stateOf?
  rw [List.getElem?_map, Option.map_map]
  rfl

/-- What a claim makes of an engine has the same signal and the same workers, and the same queue if
that has been shut down. -/
theorem submissionLaw_idle (client : Client σ) (id : MigrationId) :
    Migrator.SubmissionLaw client id fun e f => f.stop = e.stop ∧ f.workers = e.workers ∧
      (e.queue.shuttingDown = true → f.queue = e.queue) where
  refl := fun _ => ⟨rfl, rfl, fun _ => rfl⟩
  trans := fun h h' => ⟨h'.1.trans h.1, h'.2.1.trans h.2.1, fun hshut =>
    (h'.2.2 ((congrArg (·.shuttingDown) (h.2.2 hshut)).trans hshut)).trans (h.2.2 hshut)⟩
  prune := fun _ _ _ => ⟨rfl, rfl, fun _ => rfl⟩
  watch := fun kind e s => by
    unfold Migrator.watch subscribe
    split
    · exact ⟨rfl, rfl, fun _ => rfl⟩
    · rcases client.watch kind s with ⟨err | receiver, s'⟩ <;> exact ⟨rfl, rfl, fun _ => rfl⟩
  register := fun _ _ _ _ => ⟨rfl, rfl, fun _ => rfl⟩
  add := fun _ => ⟨rfl, rfl, fun hshut => WorkQueue.add_of_shuttingDown hshut id⟩

/-- A claim leaves a deserted engine deserted, with the same queue. -/
theorem Deserted.claim (h : e.Deserted) (client : Client σ) (m : Migration) (s : σ) :
    let f := (Migrator.claim client m e s).2.1
    f.Deserted ∧ f.queue = e.queue := by
  intro f
  obtain ⟨hstop, hworkers, hqueue⟩ := (submissionLaw_idle client m.id).claim rfl
    (fun e => ⟨rfl, rfl, fun _ => rfl⟩) e s
  have hqueue := hqueue h.shuttingDown
  refine ⟨⟨⟨hstop ▸ h.stopped, (congrArg (·.shuttingDown) hqueue).trans h.shuttingDown⟩,
    fun n state hn => h.gone n state ?_⟩, hqueue⟩
  rwa [← hworkers]

/-! ## Stopped engines -/

/-- A deserted engine whose subscriptions have ended. -/
structure Stopped (e : Engine) : Prop extends e.Deserted where
  ended : ∀ b ∈ e.subscriptions, b.ended = true

/-- What is left to do in a stopped engine leaves it stopped. -/
theorem Stopped.after_parting (h : e.Stopped) (hparting : Parting e s f t) : f.Stopped := by
  refine ⟨(h.toDeserted.after_parting hparting).1, ?_⟩
  cases hparting with
  | ends index b hb hrunning =>
    rw [h.ended b (List.mem_of_getElem? hb)] at hrunning
    cases hrunning
  | finishes n id hholds now v failures t => cases h.gone n _ hholds
  | goes n hn => exact h.ended
  | drops d rest hperm => exact h.ended

/-- An engine that was told to stop is stopped when all its workers are gone and all its
subscriptions have ended, if all of them are counted. -/
theorem Told.stopped_of_isStopped {m : Migrator} (h : m.engine.Told)
    (hworkers : ∀ w ∈ m.engine.workers, w.held = true)
    (hsubscriptions : ∀ b ∈ m.engine.subscriptions, b.held = true) (hstopped : m.isStopped = true) :
    m.engine.Stopped := by
  obtain ⟨hgone, hended⟩ := Bool.and_eq_true_iff.1 hstopped
  refine ⟨⟨h, fun n state hn => ?_⟩, fun b hb => ?_⟩
  · obtain ⟨w, hw, rfl⟩ := Option.map_eq_some_iff.1 hn
    have hmem := List.mem_of_getElem? hw
    simpa [hworkers w hmem] using List.all_eq_true.1 hgone w hmem
  · simpa [hsubscriptions b hb] using List.all_eq_true.1 hended b hb

/-- All that a stopped engine counts has come to its end. -/
theorem Stopped.isStopped {m : Migrator} (h : m.engine.Stopped) : m.isStopped = true := by
  unfold Migrator.isStopped workersGone subscriptionsEnded
  rw [Bool.and_eq_true_iff, List.all_eq_true, List.all_eq_true]
  refine ⟨fun w hw => ?_, fun b hb => ?_⟩
  · obtain ⟨n, hn⟩ := List.mem_iff_getElem?.1 hw
    have hstate : stateOf? m.engine.workers n = some w.state := by
      unfold stateOf?
      rw [hn]
      rfl
    simp [h.gone n w.state hstate]
  · simp [h.ended b hb]

/-- An engine that is stopped stays so when it is told to stop again. -/
theorem Stopped.requestStop (h : e.Stopped) : e.requestStop.Stopped :=
  ⟨h.toDeserted.requestStop, h.ended⟩

/-- An engine that is stopped stays so when its workers and subscriptions are no longer counted. -/
theorem Stopped.dismiss (h : e.Stopped) : e.dismissWorkers.dismissSubscriptions.Stopped := by
  refine ⟨h.toDeserted.dismiss, fun b hb => ?_⟩
  obtain ⟨c, hc, rfl⟩ := List.mem_map.1 hb
  exact h.ended c hc

end Engine

end Handover
