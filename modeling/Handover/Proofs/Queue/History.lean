import Handover.Proofs.Queue

/-!
# Histories of a queue

A queue is operated in any order (`Operation`); only the end of processing an item needs that the
item is being processed (`Permits`). Every operation changes the items of a queue in one of the ways
of `Change`, so what one operation does to the pending items, and what it does to those being
processed, is known from there. Over a history the items that became pending are, in their order,
those that have been handed out and then those still pending, and an item is handed out again only
after its processing has ended (`mutual_exclusion_and_order`).
-/

namespace Handover

variable {ι : Type}

/-- The item that is handed out, if any. -/
def Handout.item? : Handout ι → Option ι
  | .item x => some x
  | .shutDown => none
  | .nothing => none

namespace WorkQueue

/-- What can be done with a queue. A getter enters, and is served whenever it runs. -/
inductive Operation (ι : Type) where
  | add (x : ι)
  | take
  | enter (getter : Nat)
  | serve (getter : Nat)
  | done (x : ι)
  | forget (x : ι)
  | addAfter (now : Nat) (x : ι) (delay : Nat)
  | addRateLimited (now : Nat) (x : ι)
  | expire (now : Nat)
  | shutdown
  deriving DecidableEq

/-- The item whose processing an operation ends. -/
def Operation.released? : Operation ι → Option ι
  | .done x => some x
  | _ => none

/-- An operation may end the processing only of an item that is being processed. -/
def Permits (q : WorkQueue ι) (op : Operation ι) : Prop :=
  ∀ x ∈ op.released?, x ∈ q.processing

variable [DecidableEq ι]

instance (q : WorkQueue ι) (op : Operation ι) : Decidable (q.Permits op) :=
  inferInstanceAs (Decidable (∀ x ∈ op.released?, x ∈ q.processing))

/-- What an operation answers, and the queue after it. -/
def operate (q : WorkQueue ι) : Operation ι → Handout ι × WorkQueue ι
  | .add x => (.nothing, q.add x)
  | .take => q.take
  | .enter getter => (.nothing, { q with wakeups := q.wakeups.enter getter })
  | .serve getter => q.serve getter
  | .done x => (.nothing, q.done x)
  | .forget x => (.nothing, q.forget x)
  | .addAfter now x delay => (.nothing, q.addAfter now x delay)
  | .addRateLimited now x => (.nothing, q.addRateLimited now x)
  | .expire now => (.nothing, (q.expire? now).getD q)
  | .shutdown => (.nothing, q.shutdown)

/-- The queue after one operation. -/
def next (q : WorkQueue ι) (op : Operation ι) : WorkQueue ι :=
  (q.operate op).2

/-- The item that one operation hands out. -/
def handed? (q : WorkQueue ι) (op : Operation ι) : Option ι :=
  (q.operate op).1.item?

/-- The queue after some operations. -/
def after (q : WorkQueue ι) : List (Operation ι) → WorkQueue ι
  | [] => q
  | op :: ops => (q.next op).after ops

/-- Each of some operations is permitted when it is its turn. -/
def PermitsAll (q : WorkQueue ι) : List (Operation ι) → Prop
  | [] => True
  | op :: ops => q.Permits op ∧ (q.next op).PermitsAll ops

instance decidablePermitsAll (q : WorkQueue ι) : ∀ ops, Decidable (q.PermitsAll ops)
  | [] => .isTrue trivial
  | op :: ops =>
    have := decidablePermitsAll (q.next op) ops
    inferInstanceAs (Decidable (q.Permits op ∧ (q.next op).PermitsAll ops))

/-- The items that some operations hand out, in order. -/
def handouts (q : WorkQueue ι) : List (Operation ι) → List ι
  | [] => []
  | op :: ops => (q.handed? op).toList ++ (q.next op).handouts ops

/-- The items that become pending by some operations, in order. -/
def arrivals (q : WorkQueue ι) : List (Operation ι) → List ι
  | [] => []
  | op :: ops => q.arrived (q.next op) ++ (q.next op).arrivals ops

variable {q r : WorkQueue ι} {op : Operation ι} {ops before : List (Operation ι)} {x : ι}

/-! ## One operation -/

/-- A getter that runs after the queue has been shut down is told so. -/
theorem serve_of_shuttingDown (hshut : q.shuttingDown = true) (getter : Nat) :
    q.serve getter =
      (.shutDown,
        { q with wakeups := ⟨q.wakeups.sleeping, q.wakeups.ready.erase getter, false⟩ }) := by
  unfold serve take
  simp only [hshut, if_true]
  rfl

/-- Asking changes the lists only by handing out the first pending item. -/
theorem change_take (h : q.Separated) : q.Change q.take.2 q.take.1.item? none := by
  unfold take
  dsimp only
  by_cases hshut : q.shuttingDown = true
  · rw [if_pos hshut]
    exact .stay rfl
  rw [if_neg hshut]
  cases hpending : q.pending with
  | nil =>
    refine .stay ?_
    simp only [items, hpending]
  | cons x rest =>
    have hprocessing : x ∉ q.processing :=
      h.not_processing_of_pending x (hpending ▸ List.mem_cons_self)
    dsimp only
    rw [if_neg hprocessing]
    exact .handOut x rest hpending rfl

/-- Serving a getter changes the lists only by handing out the first pending item. -/
theorem change_serve (h : q.Separated) (getter : Nat) :
    q.Change (q.serve getter).2 (q.serve getter).1.item? none := by
  cases hshut : q.shuttingDown with
  | true =>
    rw [serve_of_shuttingDown hshut]
    exact .stay rfl
  | false =>
    cases hpending : q.pending with
    | nil =>
      rw [serve_of_pending_nil hshut hpending]
      exact .stay rfl
    | cons x rest =>
      have hprocessing : x ∉ q.processing :=
        h.not_processing_of_pending x (hpending ▸ List.mem_cons_self)
      rw [serve_of_pending_cons hshut hpending, if_neg hprocessing]
      exact .handOut x rest hpending rfl

/-- An addition after a delay adds the item now or leaves the lists. -/
theorem change_addAfter (heq : r.items = q.items) (now : Nat) (x : ι) (delay : Nat) :
    q.Change (r.addAfter now x delay) none none := by
  unfold addAfter
  split
  · exact .stay heq
  · split
    · exact .add x (items_add_of_items_eq heq x)
    · exact .stay heq

/-- The end of a delay adds its item. -/
theorem change_expire? (q : WorkQueue ι) (now : Nat) :
    q.Change ((q.expire? now).getD q) none none := by
  unfold expire?
  cases splitDue? now q.delayed with
  | none => exact .stay rfl
  | some found =>
    obtain ⟨d, rest⟩ := found
    have hitems : { q with delayed := rest }.items = q.items := rfl
    exact .add d.item (items_add_of_items_eq hitems d.item)

/-- Every permitted operation is one of the changes. -/
theorem change_next (h : q.Separated) (hop : q.Permits op) :
    q.Change (q.next op) (q.handed? op) op.released? := by
  cases op with
  | add x => exact .add x rfl
  | take => exact change_take h
  | enter getter => exact .stay rfl
  | serve getter => exact change_serve h getter
  | done x => exact .done x (hop x rfl) rfl
  | forget x => exact .stay rfl
  | addAfter now x delay => exact change_addAfter rfl now x delay
  | addRateLimited now x =>
    have hitems :
        { q with failures := q.failures.insert x (keptCount (q.requeues x + 1)) }.items = q.items :=
      rfl
    exact change_addAfter hitems now x (q.backoff.delayFor (keptCount (q.requeues x + 1)))
  | expire now => exact change_expire? q now
  | shutdown => exact .shutdown rfl

/-! ## Shutting down -/

/-- A queue that has been shut down and whose getters are all awake to be told. -/
structure Closed (q : WorkQueue ι) : Prop where
  shuttingDown : q.shuttingDown = true
  sleeping_eq : q.wakeups.sleeping = []

omit [DecidableEq ι] in
theorem closed_shutdown (q : WorkQueue ι) : q.shutdown.Closed :=
  ⟨rfl, rfl⟩

/-- A queue that has been shut down takes no items. -/
theorem add_of_shuttingDown (hshut : q.shuttingDown = true) (x : ι) : q.add x = q :=
  if_pos (.inl hshut)

theorem addAfter_of_shuttingDown (hshut : q.shuttingDown = true) (now : Nat) (x : ι)
    (delay : Nat) : q.addAfter now x delay = q :=
  if_pos hshut

/-- An item that fails after the shutdown is not added again, but its failures are counted. -/
theorem addRateLimited_of_shuttingDown (hshut : q.shuttingDown = true) (now : Nat) (x : ι) :
    q.addRateLimited now x =
      { q with failures := q.failures.insert x (keptCount (q.requeues x + 1)) } :=
  if_pos hshut

theorem done_of_shuttingDown (hshut : q.shuttingDown = true) (x : ι) :
    q.done x = { q with processing := q.processing.erase x } :=
  if_neg fun hpush => hpush.2 hshut

theorem take_of_shuttingDown (hshut : q.shuttingDown = true) :
    q.take = (.shutDown, { q with wakeups := { q.wakeups with kept := false } }) :=
  if_pos hshut

/-- A queue that has been shut down hands out nothing, nothing becomes pending and no getter goes to
sleep. -/
theorem Closed.next (h : q.Closed) (op : Operation ι) :
    (q.next op).Closed ∧ (q.next op).pending = q.pending ∧ q.handed? op = none := by
  obtain ⟨hshut, hsleeping⟩ := h
  unfold WorkQueue.next handed?
  cases op with
  | add x =>
    have hnext : q.operate (.add x) = (.nothing, q) := by
      rw [operate, add_of_shuttingDown hshut]
    rw [hnext]
    exact ⟨⟨hshut, hsleeping⟩, rfl, rfl⟩
  | take =>
    rw [operate, take_of_shuttingDown hshut]
    exact ⟨⟨hshut, hsleeping⟩, rfl, rfl⟩
  | enter getter => exact ⟨⟨hshut, hsleeping⟩, rfl, rfl⟩
  | serve getter =>
    rw [operate, serve_of_shuttingDown hshut]
    exact ⟨⟨hshut, hsleeping⟩, rfl, rfl⟩
  | done x =>
    rw [operate, done_of_shuttingDown hshut]
    exact ⟨⟨hshut, hsleeping⟩, rfl, rfl⟩
  | forget x => exact ⟨⟨hshut, hsleeping⟩, rfl, rfl⟩
  | addAfter now x delay =>
    rw [operate, addAfter_of_shuttingDown hshut]
    exact ⟨⟨hshut, hsleeping⟩, rfl, rfl⟩
  | addRateLimited now x =>
    rw [operate, addRateLimited_of_shuttingDown hshut]
    exact ⟨⟨hshut, hsleeping⟩, rfl, rfl⟩
  | expire now =>
    rw [operate, expire?]
    cases splitDue? now q.delayed with
    | none => exact ⟨⟨hshut, hsleeping⟩, rfl, rfl⟩
    | some found =>
      obtain ⟨d, rest⟩ := found
      dsimp only [Option.map_some, Option.getD_some]
      rw [add_of_shuttingDown (q := { q with delayed := rest }) hshut]
      exact ⟨⟨hshut, hsleeping⟩, rfl, rfl⟩
  | shutdown => exact ⟨closed_shutdown q, rfl, rfl⟩

theorem shuttingDown_addAfter (q : WorkQueue ι) (now : Nat) (x : ι) (delay : Nat) :
    (q.addAfter now x delay).shuttingDown = q.shuttingDown := by
  unfold addAfter
  split
  · rfl
  · split
    · exact shuttingDown_add q x
    · rfl

/-- Only a shutdown shuts a queue down. -/
theorem shuttingDown_next (hop : op ≠ .shutdown) : (q.next op).shuttingDown = q.shuttingDown := by
  unfold WorkQueue.next
  cases op with
  | add x => exact shuttingDown_add q x
  | take =>
    rw [operate, take]
    dsimp only
    split
    · rfl
    · split <;> rfl
  | enter getter => rfl
  | serve getter =>
    rw [operate]
    cases hshut : q.shuttingDown with
    | true =>
      rw [serve_of_shuttingDown hshut]
      exact hshut
    | false =>
      cases hpending : q.pending with
      | nil =>
        rw [serve_of_pending_nil hshut hpending]
        exact hshut
      | cons x rest =>
        rw [serve_of_pending_cons hshut hpending]
        exact hshut
  | done x => exact shuttingDown_done q x
  | forget x => rfl
  | addAfter now x delay => exact shuttingDown_addAfter q now x delay
  | addRateLimited now x => exact shuttingDown_addAfter _ now x _
  | expire now =>
    rw [operate, expire?]
    cases splitDue? now q.delayed with
    | none => rfl
    | some found => exact shuttingDown_add _ found.1.item
  | shutdown => exact absurd rfl hop

/-! ## Histories -/

theorem after_append (q : WorkQueue ι) (before rest : List (Operation ι)) :
    q.after (before ++ rest) = (q.after before).after rest := by
  induction before generalizing q with
  | nil => rfl
  | cons op before ih => exact ih (q.next op)

theorem permitsAll_append {rest : List (Operation ι)} :
    q.PermitsAll (before ++ rest) ↔ q.PermitsAll before ∧ (q.after before).PermitsAll rest := by
  induction before generalizing q with
  | nil => exact ⟨fun hrest => ⟨trivial, hrest⟩, And.right⟩
  | cons op before ih =>
    show q.Permits op ∧ (q.next op).PermitsAll (before ++ rest) ↔
      (q.Permits op ∧ (q.next op).PermitsAll before) ∧ ((q.next op).after before).PermitsAll rest
    rw [ih, and_assoc]

/-- Every history keeps a queue separated. -/
theorem Separated.after (h : q.Separated) (hops : q.PermitsAll ops) : (q.after ops).Separated := by
  induction ops generalizing q with
  | nil => exact h
  | cons op ops ih => exact ih (h.after_change (change_next h hops.1)) hops.2

theorem shuttingDown_after (hops : .shutdown ∉ ops) :
    (q.after ops).shuttingDown = q.shuttingDown := by
  induction ops generalizing q with
  | nil => rfl
  | cons op ops ih =>
    have hop : op ≠ .shutdown := fun heq => hops (heq ▸ List.mem_cons_self)
    have hrest : .shutdown ∉ ops := fun hmem => hops (List.mem_cons_of_mem _ hmem)
    exact (ih hrest).trans (shuttingDown_next hop)

/-- A queue that has been shut down stays so. -/
theorem Closed.after (h : q.Closed) (ops : List (Operation ι)) : (q.after ops).Closed := by
  induction ops generalizing q with
  | nil => exact h
  | cons op ops ih => exact ih (h.next op).1

theorem closed_after (hops : .shutdown ∈ ops) : (q.after ops).Closed := by
  obtain ⟨before, rest, rfl⟩ := List.append_of_mem hops
  rw [after_append]
  exact (closed_shutdown (q.after before)).after rest

/-- What was pending and what has become pending is what has been handed out and what is pending. -/
theorem Separated.pending_append_arrivals (h : q.Separated) (hops : q.PermitsAll ops) :
    q.pending ++ q.arrivals ops = q.handouts ops ++ (q.after ops).pending := by
  induction ops generalizing q with
  | nil => exact List.append_nil _
  | cons op ops ih =>
    have hchange := change_next h hops.1
    have hone := h.pending_append_arrived hchange
    have hrest := ih (h.after_change hchange) hops.2
    calc q.pending ++ (q.arrived (q.next op) ++ (q.next op).arrivals ops)
        = (q.handed? op).toList ++ ((q.next op).pending ++ (q.next op).arrivals ops) := by
          rw [← List.append_assoc, hone, List.append_assoc]
      _ = (q.handed? op).toList ++ (q.next op).handouts ops ++ ((q.next op).after ops).pending := by
          rw [hrest, List.append_assoc]

/-- An item is being processed until an operation ends that. -/
theorem mem_processing_after (h : q.Separated) (hops : q.PermitsAll ops) (hx : x ∈ q.processing)
    (hdone : .done x ∉ ops) : x ∈ (q.after ops).processing := by
  induction ops generalizing q with
  | nil => exact hx
  | cons op ops ih =>
    have hchange := change_next h hops.1
    have hreleased : op.released? ≠ some x := by
      intro heq
      cases op with
      | done y => exact hdone (Option.some.inj heq ▸ List.mem_cons_self)
      | _ => cases heq
    exact ih (h.after_change hchange) hops.2 (hchange.mem_processing hx hreleased)
      fun hmem => hdone (List.mem_cons_of_mem _ hmem)

/-- Between two operations that hand out the same item, its processing has ended. -/
theorem done_mem_between (h : q.Separated) {first second : Operation ι}
    {before between : List (Operation ι)}
    (hops : q.PermitsAll (before ++ first :: (between ++ [second])))
    (hfirst : (q.after before).handed? first = some x)
    (hsecond : (q.after (before ++ first :: between)).handed? second = some x) :
    .done x ∈ between := by
  by_contra hdone
  obtain ⟨hbefore, hpermitted, hrest⟩ := permitsAll_append.1 hops
  obtain ⟨hbetween, hlast, -⟩ := permitsAll_append.1 hrest
  rw [after_append] at hsecond
  -- the item is processed from the first operation on, and it must not be so before the second one
  have hseparated := h.after hbefore
  have hchange := change_next hseparated hpermitted
  have hafter := hseparated.after_change hchange
  have hlastchange := change_next (hafter.after hbetween) hlast
  rw [hfirst] at hchange
  have hprocessing := (hseparated.of_handed hchange).2
  have hstill := mem_processing_after hafter hbetween hprocessing hdone
  have hhanded : ((q.after before).after (first :: between)).handed? second = some x := hsecond
  rw [show ((q.after before).next first).after between = (q.after before).after (first :: between)
    from rfl, hhanded] at hlastchange
  exact ((hafter.after hbetween).of_handed hlastchange).1 hstill

/-- Over every history of a queue, from its beginning: no item is pending twice or while it is being
processed; until the queue is shut down what is pending is what is dirty and not being processed;
an item is handed out again only after its processing has ended; items are handed out in the order
in which they became pending; and once the queue has been shut down every getter is awake, whoever
asks is told so, and nothing becomes pending. -/
theorem mutual_exclusion_and_order {name : String} {backoff : Backoff}
    (hops : (empty name backoff : WorkQueue ι).PermitsAll ops) :
    let start : WorkQueue ι := empty name backoff
    let q := start.after ops
    q.pending.Nodup ∧
      (∀ x ∈ q.pending, x ∉ q.processing) ∧
      (.shutdown ∉ ops → ∀ x, x ∈ q.pending ↔ x ∈ q.dirty ∧ x ∉ q.processing) ∧
      (∀ before first between second rest x,
        ops = before ++ first :: (between ++ second :: rest) →
        (start.after before).handed? first = some x →
        (start.after (before ++ first :: between)).handed? second = some x → .done x ∈ between) ∧
      start.arrivals ops = start.handouts ops ++ q.pending ∧
      (.shutdown ∈ ops →
        q.wakeups.sleeping = [] ∧ q.take.1 = .shutDown ∧
          (∀ getter, (q.serve getter).1 = .shutDown) ∧ ∀ op, (q.next op).pending = q.pending) := by
  intro start q
  have hstart : start.Separated := separated_empty name backoff
  have hq : q.Separated := hstart.after hops
  refine ⟨hq.pending_nodup, hq.not_processing_of_pending, ?_, ?_, ?_, ?_⟩
  · intro hshutdown
    exact hq.mem_pending_iff (shuttingDown_after hshutdown)
  · intro before first between second rest x heq hfirst hsecond
    have hsplit : ops = (before ++ first :: (between ++ [second])) ++ rest := by simp [heq]
    rw [hsplit] at hops
    exact done_mem_between hstart (permitsAll_append.1 hops).1 hfirst hsecond
  · exact hstart.pending_append_arrivals hops
  · intro hshutdown
    have hclosed : q.Closed := closed_after hshutdown
    refine ⟨hclosed.sleeping_eq, ?_, fun getter => ?_, fun op => (hclosed.next op).2.1⟩
    · rw [take_of_shuttingDown hclosed.shuttingDown]
    · rw [serve_of_shuttingDown hclosed.shuttingDown]

/-- An item is added again while it is being processed, another one after a delay, and the queue is
shut down. -/
theorem mutual_exclusion_and_order_readded :
    let start : WorkQueue Nat := empty "items" .default
    let readded : List (Operation Nat) :=
      [.add 1, .add 2, .take, .add 1, .addAfter 0 3 5, .expire 5, .serve 0, .done 1]
    let ops := readded ++ [.take, .shutdown, .take]
    start.PermitsAll ops ∧ start.handouts ops = [1, 2, 3] ∧ start.arrivals ops = [1, 2, 3, 1] ∧
      (∀ x, x ∈ (start.after readded).pending ↔
        x ∈ (start.after readded).dirty ∧ x ∉ (start.after readded).processing) ∧
      (start.after ops).take.1 = .shutDown := by
  intro start readded ops
  have hreadded : start.PermitsAll readded := by decide
  have hops : start.PermitsAll ops := by decide
  obtain ⟨-, -, hpending, -, -, -⟩ := mutual_exclusion_and_order hreadded
  obtain ⟨-, -, -, -, -, hshutdown⟩ := mutual_exclusion_and_order hops
  exact ⟨hops, by decide, by decide, hpending (by decide), (hshutdown (by decide)).2.1⟩

end WorkQueue

end Handover
