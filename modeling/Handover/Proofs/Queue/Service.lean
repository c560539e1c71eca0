import Handover.Proofs.Queue.Rounds
import Handover.Queue.Bench

/-!
# Service of a queue

A queue is operated in any order while getters wait for its items, in turn or out of turn, and time
passes (`QueueBench.Event`). Whoever waits is known to the queue (`Attentive`), so when all work is
done that can be done now, nobody waits while something is pending (`Attentive.served`). The work
that can be done now comes to an end (`quiet_run`). With what a history means to an item this is
`QueueBench.no_addition_lost_or_invented`.
-/

namespace Handover

/-- Work that gets smaller with every step is finished if there are enough steps. -/
theorem exhaust_finished {α : Type} {step? : α → Option α} {size : α → Nat}
    (hstep : ∀ a b, step? a = some b → size b < size a) {fuel : Nat} {a : α}
    (h : size a < fuel) : step? (exhaust step? fuel a) = none := by
  induction fuel generalizing a with
  | zero => exact absurd h (Nat.not_lt_zero _)
  | succ fuel ih =>
    unfold exhaust
    cases hb : step? a with
    | none => exact hb
    | some b =>
      have hlt := hstep a b hb
      exact ih (by omega)

namespace QueueBench

variable {ι : Type}

/-- What may happen to a queue whose getters wait: it is operated, somebody asks it without waiting,
a getter starts to wait, a getter that is to run runs, a delay ends, or time passes. -/
inductive Event (ι : Type) where
  | add (x : ι)
  | addAfter (x : ι) (delay : Nat)
  | addRateLimited (x : ι)
  | done (x : ι)
  | forget (x : ι)
  | ask
  | enter
  | wake (getter : Nat)
  | expire
  | elapse (milliseconds : Nat)
  deriving DecidableEq

/-- Work that goes on by itself. -/
def Event.IsWork : Event ι → Prop
  | wake _ | expire => True
  | add _ | addAfter .. | addRateLimited _ | done _ | forget _ | ask | enter | elapse _ => False

variable [DecidableEq ι]

/-- The bench after an event. -/
def next (b : QueueBench ι) : Event ι → QueueBench ι
  | .add x => b.onQueue (·.add x)
  | .addAfter x delay => b.onQueue (·.addAfter b.now x delay)
  | .addRateLimited x => b.onQueue (·.addRateLimited b.now x)
  | .done x => b.onQueue (·.done x)
  | .forget x => b.onQueue (·.forget x)
  | .ask => b.onQueue fun q => q.take.2
  | .enter => b.addGetter
  | .wake getter => (b.wake? getter).getD b
  | .expire => b.expire?.getD b
  | .elapse milliseconds => Clockwork.setNow (b.now + milliseconds) b

/-- The bench after some events. -/
def after (b : QueueBench ι) : List (Event ι) → QueueBench ι
  | [] => b
  | e :: events => (b.next e).after events

/-- What an event does to the queue. -/
def operation? (b : QueueBench ι) : Event ι → Option (WorkQueue.Operation ι)
  | .add x => some (.add x)
  | .addAfter x delay => some (.addAfter b.now x delay)
  | .addRateLimited x => some (.addRateLimited b.now x)
  | .done x => some (.done x)
  | .forget x => some (.forget x)
  | .ask => some .take
  | .enter => some (.enter b.getters.length)
  | .wake getter => if getter ∈ b.queue.wakeups.ready then some (.serve getter) else none
  | .expire => some (.expire b.now)
  | .elapse _ => none

/-- The history of the queue over some events. -/
def operations (b : QueueBench ι) : List (Event ι) → List (WorkQueue.Operation ι)
  | [] => []
  | e :: events => (b.operation? e).toList ++ (b.next e).operations events

variable {b c : QueueBench ι} {e : Event ι} {events : List (Event ι)}

/-! ## One event -/

theorem next_wake_of_mem {getter : Nat} (h : getter ∈ b.queue.wakeups.ready) :
    b.next (.wake getter) =
      { b with
        queue := (b.queue.serve getter).2
        getters := b.getters.set getter (.ofHandout (b.queue.serve getter).1) } := by
  have hwake : b.wake? getter = some
      { b with
        queue := (b.queue.serve getter).2
        getters := b.getters.set getter (.ofHandout (b.queue.serve getter).1) } := if_pos h
  show (b.wake? getter).getD b = _
  rw [hwake, Option.getD_some]

theorem next_wake_of_not_mem {getter : Nat} (h : getter ∉ b.queue.wakeups.ready) :
    b.next (.wake getter) = b := by
  have hwake : b.wake? getter = none := if_neg h
  show (b.wake? getter).getD b = _
  rw [hwake, Option.getD_none]

theorem next_expire (b : QueueBench ι) :
    b.next .expire = { b with queue := (b.queue.expire? b.now).getD b.queue } := by
  show ((b.queue.expire? b.now).map fun queue => { b with queue }).getD b = _
  cases b.queue.expire? b.now <;> rfl

omit [DecidableEq ι] in
theorem operation?_wake (b : QueueBench ι) (getter : Nat) :
    b.operation? (.wake getter) =
      if getter ∈ b.queue.wakeups.ready then some (.serve getter) else none :=
  rfl

/-- What an event does to the queue is one operation or nothing. -/
theorem queue_next (b : QueueBench ι) (e : Event ι) :
    (b.next e).queue = b.queue.after (b.operation? e).toList := by
  cases e with
  | wake getter =>
    rw [operation?_wake]
    by_cases h : getter ∈ b.queue.wakeups.ready
    · rw [next_wake_of_mem h, if_pos h]
      rfl
    · rw [next_wake_of_not_mem h, if_neg h]
      rfl
  | expire =>
    rw [next_expire]
    rfl
  | _ => rfl

omit [DecidableEq ι] in
/-- No event shuts the queue down. -/
theorem operation?_ne_shutdown (b : QueueBench ι) (e : Event ι) :
    b.operation? e ≠ some .shutdown := by
  cases e with
  | wake getter =>
    rw [operation?_wake]
    split <;> simp
  | _ => simp [operation?]

/-! ## Histories -/

theorem queue_after (b : QueueBench ι) (events : List (Event ι)) :
    (b.after events).queue = b.queue.after (b.operations events) := by
  induction events generalizing b with
  | nil => rfl
  | cons e events ih =>
    have hrest := ih (b.next e)
    rw [queue_next, ← WorkQueue.after_append] at hrest
    exact hrest

theorem after_append (b : QueueBench ι) (events rest : List (Event ι)) :
    b.after (events ++ rest) = (b.after events).after rest := by
  induction events generalizing b with
  | nil => rfl
  | cons e events ih => exact ih (b.next e)

theorem operations_append (b : QueueBench ι) (events rest : List (Event ι)) :
    b.operations (events ++ rest) = b.operations events ++ (b.after events).operations rest := by
  induction events generalizing b with
  | nil => rfl
  | cons e events ih =>
    show (b.operation? e).toList ++ (b.next e).operations (events ++ rest) = _
    rw [ih (b.next e), ← List.append_assoc]
    rfl

theorem shutdown_not_mem_operations (b : QueueBench ι) (events : List (Event ι)) :
    .shutdown ∉ b.operations events := by
  induction events generalizing b with
  | nil => exact List.not_mem_nil
  | cons e events ih =>
    intro hmem
    rcases List.mem_append.1 hmem with hmem | hmem
    · exact operation?_ne_shutdown b e (Option.mem_toList.1 hmem)
    · exact ih (b.next e) hmem

/-! ## Getters -/

/-- Whoever waits is known to the queue, which is orderly. -/
structure Attentive (b : QueueBench ι) : Prop where
  orderly : b.queue.Orderly
  mem_waiting : ∀ getter, b.getters[getter]? = some .waiting → getter ∈ b.queue.waiting

omit [DecidableEq ι] in
theorem attentive_start (name : String) (backoff : Backoff) :
    (start name backoff : QueueBench ι).Attentive := by
  refine ⟨WorkQueue.orderly_empty name backoff, ?_⟩
  intro getter hgetter
  cases hgetter

/-- A getter that is to run runs, and waits on unless it gets an item. -/
theorem Attentive.wake (h : b.Attentive) (getter : Nat) :
    ∀ other, (b.next (.wake getter)).getters[other]? = some .waiting →
      other ∈ (b.next (.wake getter)).queue.waiting := by
  by_cases hready : getter ∈ b.queue.wakeups.ready
  · rw [next_wake_of_mem hready]
    intro other hother
    dsimp only at hother ⊢
    rw [List.getElem?_set] at hother
    split at hother
    · next heq =>
      subst heq
      rcases WorkQueue.mem_waiting_serve h.orderly getter with hwaiting | ⟨x, hx⟩
      · exact hwaiting
      · -- who has got an item does not wait
        rw [hx] at hother
        split at hother <;> cases hother
    · next hne =>
      exact WorkQueue.mem_waiting_serve_of_ne h.orderly (Ne.symm hne) (h.mem_waiting other hother)
  · rw [next_wake_of_not_mem hready]
    exact h.mem_waiting

omit [DecidableEq ι] in
/-- A getter that starts to wait is known to the queue. -/
theorem Attentive.enter (h : b.Attentive) :
    ∀ getter, b.addGetter.getters[getter]? = some .waiting →
      getter ∈ b.addGetter.queue.waiting := by
  intro getter hgetter
  have hperm := WorkQueue.waiting_enter b.queue b.getters.length
  refine hperm.mem_iff.2 (List.mem_cons.2 ?_)
  have hgetters : b.addGetter.getters = b.getters ++ [.waiting] := rfl
  rw [hgetters, List.getElem?_append] at hgetter
  split at hgetter
  · exact .inr (h.mem_waiting getter hgetter)
  · next hge =>
    have hlt := (List.getElem?_eq_some_iff.1 hgetter).1
    rw [List.length_singleton] at hlt
    exact .inl (by omega)

/-- Every event keeps the bench attentive, if only items that are being processed are done. -/
theorem Attentive.next (h : b.Attentive) (e : Event ι)
    (hpermits : b.queue.PermitsAll (b.operation? e).toList) : (b.next e).Attentive := by
  have hshutdown : .shutdown ∉ (b.operation? e).toList := fun hmem =>
    operation?_ne_shutdown b e (Option.mem_toList.1 hmem)
  have horderly : (b.next e).queue.Orderly := by
    rw [queue_next]
    exact h.orderly.after hpermits hshutdown
  have hstays : ∀ op : WorkQueue.Operation ι, (∀ getter, op ≠ .serve getter) → op ≠ .shutdown →
      b.queue.Permits op → ∀ getter, b.getters[getter]? = some .waiting →
        getter ∈ (b.queue.next op).waiting := by
    intro op hserve hop hpermitted getter hgetter
    have hwaiting := h.mem_waiting getter hgetter
    exact (WorkQueue.mem_waiting_next h.orderly hpermitted hop hwaiting).resolve_right
      (hserve getter)
  refine ⟨horderly, ?_⟩
  cases e with
  | add x => exact hstays (.add x) (by simp) (by simp) hpermits.1
  | addAfter x delay => exact hstays (.addAfter b.now x delay) (by simp) (by simp) hpermits.1
  | addRateLimited x => exact hstays (.addRateLimited b.now x) (by simp) (by simp) hpermits.1
  | done x => exact hstays (.done x) (by simp) (by simp) hpermits.1
  | forget x => exact hstays (.forget x) (by simp) (by simp) hpermits.1
  | ask => exact hstays .take (by simp) (by simp) hpermits.1
  | enter => exact h.enter
  | wake getter => exact h.wake getter
  | expire =>
    rw [next_expire]
    exact hstays (.expire b.now) (by simp) (by simp) hpermits.1
  | elapse milliseconds => exact h.mem_waiting

theorem Attentive.after (h : b.Attentive) (hpermits : b.queue.PermitsAll (b.operations events)) :
    (b.after events).Attentive := by
  induction events generalizing b with
  | nil => exact h
  | cons e events ih =>
    obtain ⟨hfirst, hrest⟩ := WorkQueue.permitsAll_append.1 hpermits
    rw [← queue_next] at hrest
    exact ih (h.next e hfirst) hrest

/-! ## Work that can be done now -/

theorem step?_of_ready_cons {getter : Nat} {rest : List Nat}
    (h : b.queue.wakeups.ready = getter :: rest) :
    Clockwork.step? b = some (b.next (.wake getter)) := by
  have hmem : getter ∈ b.queue.wakeups.ready := h ▸ List.mem_cons_self
  rw [next_wake_of_mem hmem]
  show ((b.queue.wakeups.ready.head?.bind b.wake?) <|> b.expire?) = _
  rw [h, List.head?_cons, Option.bind_some, wake?, if_pos hmem]
  rfl

theorem step?_of_ready_nil (h : b.queue.wakeups.ready = []) :
    Clockwork.step? b = (b.queue.expire? b.now).map fun queue => { b with queue } := by
  show ((b.queue.wakeups.ready.head?.bind b.wake?) <|> b.expire?) = _
  rw [h]
  rfl

theorem quiet_iff (b : QueueBench ι) :
    Clockwork.Quiet b ↔ b.queue.wakeups.ready = [] ∧ b.queue.expire? b.now = none := by
  unfold Clockwork.Quiet
  cases hready : b.queue.wakeups.ready with
  | nil => simp [step?_of_ready_nil hready]
  | cons getter rest => simp [step?_of_ready_cons hready]

/-- When all work is done that can be done now, nobody waits while something is pending. -/
theorem Attentive.served (h : b.Attentive) (hquiet : Clockwork.Quiet b) {getter : Nat}
    (hgetter : b.getters[getter]? = some .waiting) : b.queue.pending = [] := by
  obtain ⟨hready, -⟩ := (quiet_iff b).1 hquiet
  have hwaiting := h.mem_waiting getter hgetter
  unfold WorkQueue.waiting at hwaiting
  rw [hready, List.nil_append] at hwaiting
  -- the getter sleeps, so at least as many are awake as there are pending items
  have hle := h.orderly.attended (List.ne_nil_of_mem hwaiting)
  rw [hready] at hle
  exact List.length_eq_zero_iff.1 (Nat.le_zero.1 hle)

/-- The work that can be done now: every delayed item may be added and may make a getter run. -/
def remaining (b : QueueBench ι) : Nat :=
  2 * b.queue.delayed.length + b.queue.wakeups.ready.length

/-- A step of work is an event, and leaves less to do. -/
theorem exists_work_of_step? (h : Clockwork.step? b = some c) :
    ∃ e : Event ι, e.IsWork ∧ c = b.next e ∧ c.remaining < b.remaining := by
  cases hready : b.queue.wakeups.ready with
  | cons getter rest =>
    rw [step?_of_ready_cons hready, Option.some.injEq] at h
    have hmem : getter ∈ b.queue.wakeups.ready := hready ▸ List.mem_cons_self
    refine ⟨.wake getter, trivial, h.symm, ?_⟩
    have hlength := List.length_erase_of_mem hmem
    have hpos := List.length_pos_of_mem hmem
    rw [← h, next_wake_of_mem hmem]
    unfold remaining
    dsimp only
    rw [WorkQueue.delayed_serve, WorkQueue.ready_serve]
    omega
  | nil =>
    rw [step?_of_ready_nil hready] at h
    obtain ⟨queue, hexpire, rfl⟩ := Option.map_eq_some_iff.1 h
    refine ⟨.expire, trivial, ?_, ?_⟩
    · rw [next_expire, hexpire, Option.getD_some]
    · obtain ⟨hdelayed, hready'⟩ := WorkQueue.length_expire? hexpire
      unfold remaining
      dsimp only
      omega

/-- What is done when all work is done is a sequence of events. -/
theorem exists_work_exhaust (fuel : Nat) (b : QueueBench ι) :
    ∃ work : List (Event ι), (∀ e ∈ work, e.IsWork) ∧
      exhaust Clockwork.step? fuel b = b.after work := by
  induction fuel generalizing b with
  | zero => exact ⟨[], nofun, rfl⟩
  | succ fuel ih =>
    unfold exhaust
    cases hstep : Clockwork.step? b with
    | none => exact ⟨[], nofun, rfl⟩
    | some c =>
      obtain ⟨e, he, rfl, -⟩ := exists_work_of_step? hstep
      obtain ⟨work, hwork, hafter⟩ := ih (b.next e)
      refine ⟨e :: work, ?_, hafter⟩
      intro e' he'
      rcases List.mem_cons.1 he' with rfl | he'
      · exact he
      · exact hwork e' he'

/-- All work that can be done now is done at some time. -/
theorem quiet_run (b : QueueBench ι) : Clockwork.Quiet (Clockwork.run b) := by
  have hstep : ∀ b c : QueueBench ι, Clockwork.step? b = some c → c.remaining < b.remaining := by
    intro b c h
    obtain ⟨e, -, -, hlt⟩ := exists_work_of_step? h
    exact hlt
  have hbound : b.remaining < Clockwork.bound b := by
    show 2 * b.queue.delayed.length + b.queue.wakeups.ready.length <
      2 * (b.queue.delayed.length + b.queue.wakeups.ready.length +
        b.queue.wakeups.sleeping.length) + 1
    omega
  exact exhaust_finished hstep hbound

/-- Work may go on at any time. -/
theorem permitsAll_of_isWork {work : List (Event ι)} (h : ∀ e ∈ work, e.IsWork) :
    b.queue.PermitsAll (b.operations work) := by
  induction work generalizing b with
  | nil => trivial
  | cons e work ih =>
    have hfirst : b.queue.PermitsAll (b.operation? e).toList := by
      have he := h e List.mem_cons_self
      cases e with
      | wake getter =>
        rw [operation?_wake]
        split
        · exact ⟨nofun, trivial⟩
        · trivial
      | expire => exact ⟨nofun, trivial⟩
      | _ => exact he.elim
    refine WorkQueue.permitsAll_append.2 ⟨hfirst, ?_⟩
    rw [← queue_next]
    exact ih fun e' he' => h e' (List.mem_cons_of_mem e he')

/-! ## What a history means to an item -/

/-- Over every history of a queue and its getters that does not shut it down: an item that has been
added, also at the end of a delay, is pending, or dirty while it is being processed, until it is
handed out; before each hand-out there is an addition, and between two hand-outs too; there is one
hand-out for each round of additions, but for one that is still owed. No addition that is put off is
lost or made twice or made too early. When all work is done that can be done now, which happens, no
addition is due and nobody waits while something is pending. -/
theorem no_addition_lost_or_invented {name : String} {backoff : Backoff} {events : List (Event ι)}
    (hevents : (WorkQueue.empty name backoff).PermitsAll
      ((start name backoff).operations events)) :
    let empty : WorkQueue ι := .empty name backoff
    let bench : QueueBench ι := start name backoff
    let ops := bench.operations events
    let b := bench.after events
    (∀ x,
      (∀ before since, empty.trace x ops = before ++ .added :: since → .handed ∉ since →
        x ∈ b.queue.pending ∨ x ∈ b.queue.dirty ∧ x ∈ b.queue.processing) ∧
      (∀ before rest, empty.trace x ops = before ++ .handed :: rest → .added ∈ before) ∧
      (∀ before between rest,
        empty.trace x ops = before ++ .handed :: (between ++ .handed :: rest) →
        .added ∈ between) ∧
      (x ∉ b.queue.dirty →
        (empty.trace x ops).count .handed = Mark.rounds false (empty.trace x ops)) ∧
      (x ∈ b.queue.dirty →
        (empty.trace x ops).count .handed + 1 = Mark.rounds false (empty.trace x ops))) ∧
    (empty.postponed ops).Perm (empty.expired ops ++ b.queue.delayed) ∧
    (∀ before rest d, events = before ++ .expire :: rest →
      (bench.after before).queue.expired? (.expire (bench.after before).now) = some d →
      d.due ≤ (bench.after before).now) ∧
    (Clockwork.Quiet b →
      (∀ d ∈ b.queue.delayed, b.now < d.due) ∧
      ∀ getter : Nat, b.getters[getter]? = some .waiting → b.queue.pending = []) ∧
    Clockwork.Quiet (Clockwork.run b) ∧
    ∃ work, empty.PermitsAll (bench.operations (events ++ work)) ∧
      Clockwork.run b = bench.after (events ++ work) := by
  intro empty bench ops b
  have hshutdown : .shutdown ∉ ops := shutdown_not_mem_operations bench events
  have hempty : empty.Orderly := WorkQueue.orderly_empty name backoff
  have hqueue : b.queue = empty.after ops := queue_after bench events
  have hb : b.Attentive := (attentive_start name backoff).after hevents
  refine ⟨?_, ?_, ?_, ?_, quiet_run b, ?_⟩
  · intro x
    -- nothing is owed at first, and in the end a hand-out to each dirty item
    have hlaw : Mark.settle? false (empty.trace x ops) = some (decide (x ∈ b.queue.dirty)) := by
      rw [hqueue]
      exact WorkQueue.settle?_trace hempty hevents hshutdown x
    have hcount := Mark.count_handed hlaw
    refine ⟨?_, ?_, ?_, ?_, ?_⟩
    · intro before since htrace hsince
      rw [htrace] at hlaw
      have hdirty : x ∈ b.queue.dirty := of_decide_eq_true (Mark.eq_true_of_added hlaw hsince)
      exact (hb.orderly.pending_or_processing x hdirty).imp id fun hprocessing =>
        ⟨hdirty, hprocessing⟩
    · intro before rest htrace
      rw [htrace] at hlaw
      exact Mark.added_mem_of_settle? (Mark.settle?_eq_some_true hlaw)
    · intro before between rest htrace
      rw [htrace] at hlaw
      have hbetween := Mark.settle?_after_handed hlaw
      exact Mark.added_mem_of_settle? (Mark.settle?_eq_some_true hbetween)
    · intro hdirty
      rw [decide_eq_false hdirty] at hcount
      exact hcount
    · intro hdirty
      rw [decide_eq_true hdirty] at hcount
      exact hcount
  · have hperm := WorkQueue.postponed_perm hempty hevents hshutdown
    rw [← hqueue] at hperm
    exact hperm
  · intro before rest d _ hexpired
    obtain ⟨⟨d', others⟩, hsplit, rfl⟩ := Option.map_eq_some_iff.1 hexpired
    exact (WorkQueue.of_splitDue?_eq_some hsplit).1
  · intro hquiet
    have hnone := Option.map_eq_none_iff.1 ((quiet_iff b).1 hquiet).2
    exact ⟨WorkQueue.lt_due_of_splitDue?_eq_none hnone, fun getter => hb.served hquiet⟩
  · obtain ⟨work, hwork, hrun⟩ := exists_work_exhaust (Clockwork.bound b) b
    refine ⟨work, ?_, ?_⟩
    · rw [operations_append, WorkQueue.permitsAll_append]
      refine ⟨hevents, ?_⟩
      have hwork := permitsAll_of_isWork (b := b) hwork
      rw [hqueue] at hwork
      exact hwork
    · rw [after_append]
      exact hrun

/-- Somebody who does not wait takes the item for which a getter was woken. The item is added twice
while it is being processed, and the getter gets it then; another item is added after a delay, when
nobody waits any more. -/
theorem no_addition_lost_or_invented_taken :
    let bench : QueueBench Nat := start "items" .default
    let events : List (Event Nat) := [.enter, .wake 0, .add 1, .ask, .wake 0, .add 1, .add 1,
      .addAfter 2 5, .done 1, .wake 0, .elapse 5, .expire]
    let marks := bench.queue.trace 1 (bench.operations events)
    let b := bench.after events
    bench.queue.PermitsAll (bench.operations events) ∧
      marks = [.added, .handed, .added, .added, .handed] ∧
      marks.count .handed = Mark.rounds false marks ∧ 2 ∈ b.queue.pending ∧
      ∀ getter : Nat, b.getters[getter]? ≠ some .waiting := by
  dsimp only
  obtain ⟨hitems, -, -, hserved, -, -⟩ := @no_addition_lost_or_invented Nat _ "items" .default
    [.enter, .wake 0, .add 1, .ask, .wake 0, .add 1, .add 1, .addAfter 2 5, .done 1, .wake 0,
      .elapse 5, .expire] (by decide)
  obtain ⟨-, -, -, hcount, -⟩ := hitems 1
  obtain ⟨-, hnobody⟩ :=
    hserved ((quiet_iff _).2 ⟨by decide, Option.isNone_iff_eq_none.1 (by decide)⟩)
  refine ⟨by decide, by decide, hcount (by decide), by decide, ?_⟩
  intro getter hgetter
  -- something is pending
  exact absurd (hnobody getter hgetter) (by decide)

end QueueBench

end Handover
