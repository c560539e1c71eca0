import Handover.Proofs.Queue.Separated

/-!
# Orderly queues

A queue is `Orderly` if it runs, no item occurs twice in any of its lists, pending items are dirty
and not being processed, dirty items are pending or being processed, and getters sleep only while
enough others are awake for what is pending. Every operation keeps a queue orderly. An operation
that adds items makes it grow (`Grows`): nothing that was to come up is lost, and who is processing
or waiting stays so. What a getter gets is said by `serve_cases` (`HandsOut`), and what becomes of a
queue when an item is done by `releases_done` (`Releases`).
-/

namespace Handover.WorkQueue

variable {ι : Type}

/-- The getters that look for an item, those that are to run first. -/
def waiting (q : WorkQueue ι) : List Nat :=
  q.wakeups.ready ++ q.wakeups.sleeping

/-- An item that will come up: it is dirty, or it will be added after a delay. -/
def Awaits (q : WorkQueue ι) (x : ι) : Prop :=
  x ∈ q.dirty ∨ ∃ d ∈ q.delayed, d.item = x

/-- Getters sleep only while at least as many others are awake as there are pending items. -/
def Attended (q : WorkQueue ι) : Prop :=
  q.wakeups.sleeping ≠ [] → q.pending.length ≤ q.wakeups.ready.length

/-- What holds of a queue at work, also while an item is on its way from one list to another. -/
structure Consistent (q : WorkQueue ι) : Prop where
  running : q.shuttingDown = false
  pending_nodup : q.pending.Nodup
  dirty_nodup : q.dirty.Nodup
  processing_nodup : q.processing.Nodup
  dirty_of_pending : ∀ x ∈ q.pending, x ∈ q.dirty
  not_processing_of_pending : ∀ x ∈ q.pending, x ∉ q.processing
  attended : q.Attended

/-- What holds of a queue at work: besides, no dirty item is lost. -/
structure Orderly (q : WorkQueue ι) : Prop extends q.Consistent where
  pending_or_processing : ∀ x ∈ q.dirty, x ∈ q.pending ∨ x ∈ q.processing

variable {q r s : WorkQueue ι} {x y : ι} {now : Nat}

theorem Orderly.separated (h : q.Orderly) : q.Separated :=
  ⟨⟨h.pending_nodup, h.dirty_nodup, h.processing_nodup, h.dirty_of_pending,
    h.not_processing_of_pending⟩, fun _ => h.pending_or_processing⟩

/-- A queue whose items are separated is orderly if it runs and what is pending is attended to. -/
theorem Separated.orderly (h : q.Separated) (hrunning : q.shuttingDown = false)
    (hattended : q.Attended) : q.Orderly :=
  ⟨⟨hrunning, h.pending_nodup, h.dirty_nodup, h.processing_nodup, h.dirty_of_pending,
    h.not_processing_of_pending, hattended⟩, h.pending_or_processing hrunning⟩

theorem orderly_empty (name : String) (backoff : Backoff) :
    (empty name backoff : WorkQueue ι).Orderly :=
  (separated_empty name backoff).orderly rfl fun _ => Nat.zero_le _

/-! ## Growing -/

/-- A queue that has become another one by additions. -/
structure Grows (q r : WorkQueue ι) : Prop where
  orderly : r.Orderly
  processing_eq : r.processing = q.processing
  waiting_perm : r.waiting.Perm q.waiting
  dirty_subset : ∀ x ∈ q.dirty, x ∈ r.dirty
  awaits : ∀ x, q.Awaits x → r.Awaits x

theorem Grows.refl (h : q.Orderly) : q.Grows q :=
  ⟨h, rfl, .refl _, fun _ hx => hx, fun _ hx => hx⟩

theorem Grows.trans (h : q.Grows r) (h' : r.Grows s) : q.Grows s where
  orderly := h'.orderly
  processing_eq := h'.processing_eq.trans h.processing_eq
  waiting_perm := h'.waiting_perm.trans h.waiting_perm
  dirty_subset := fun x hx => h'.dirty_subset x (h.dirty_subset x hx)
  awaits := fun x hx => h'.awaits x (h.awaits x hx)

/-- A wake-up moves a getter from those that sleep to those that are to run. -/
theorem waiting_push (q : WorkQueue ι) (x : ι) : (q.push x).waiting.Perm q.waiting := by
  unfold waiting push Wakeups.wakeOne
  cases q.wakeups.sleeping with
  | nil => exact .refl _
  | cons getter rest =>
    show (q.wakeups.ready ++ [getter] ++ rest).Perm (q.wakeups.ready ++ getter :: rest)
    rw [List.append_assoc, List.singleton_append]

theorem attended_push (h : q.Attended) (x : ι) : (q.push x).Attended := by
  unfold Attended push Wakeups.wakeOne at *
  cases hsleeping : q.wakeups.sleeping with
  | nil => exact fun hne => absurd rfl hne
  | cons getter rest =>
    -- one item more is pending, and one getter more is awake
    intro _
    have hsome : q.wakeups.sleeping ≠ [] := by
      rw [hsleeping]
      exact List.cons_ne_nil getter rest
    have hle := h hsome
    show (q.pending ++ [x]).length ≤ (q.wakeups.ready ++ [getter]).length
    rw [List.length_append, List.length_append, List.length_singleton, List.length_singleton]
    omega

variable [DecidableEq ι]

/-- Adding an item makes the queue grow, and the item is dirty then. -/
theorem grows_add (h : q.Orderly) (x : ι) : q.Grows (q.add x) ∧ x ∈ (q.add x).dirty := by
  have hseparated := h.separated.add x
  unfold add at hseparated ⊢
  by_cases hdirty : x ∈ q.dirty
  · -- it will come up anyway
    rw [if_pos (.inr hdirty)]
    exact ⟨.refl h, hdirty⟩
  have hskip : ¬ (q.shuttingDown = true ∨ x ∈ q.dirty) := by simp [h.running, hdirty]
  rw [if_neg hskip] at hseparated ⊢
  have hmem : x ∈ q.dirty ++ [x] := List.mem_append_right _ (List.mem_singleton_self x)
  have hsubset : ∀ y ∈ q.dirty, y ∈ q.dirty ++ [x] := fun y hy => List.mem_append_left _ hy
  have hawaits : ∀ y, q.Awaits y → y ∈ q.dirty ++ [x] ∨ ∃ d ∈ q.delayed, d.item = y :=
    fun y hy => hy.imp (hsubset y) id
  by_cases hprocessing : x ∈ q.processing
  · -- the item becomes pending when it is no longer processed
    rw [if_pos hprocessing] at hseparated ⊢
    have horderly := hseparated.orderly h.running h.attended
    exact ⟨⟨horderly, rfl, .refl _, hsubset, hawaits⟩, hmem⟩
  · rw [if_neg hprocessing] at hseparated ⊢
    have hattended := attended_push (q := { q with dirty := q.dirty ++ [x] }) h.attended x
    have horderly := hseparated.orderly h.running hattended
    exact ⟨⟨horderly, rfl, waiting_push _ x, hsubset, hawaits⟩, hmem⟩

/-- Adding an item after a delay makes the queue grow, and the item will come up. -/
theorem grows_addAfter (h : q.Orderly) (now : Nat) (x : ι) (delay : Nat) :
    q.Grows (q.addAfter now x delay) ∧ (q.addAfter now x delay).Awaits x := by
  unfold addAfter
  rw [if_neg (by simp [h.running])]
  split
  · obtain ⟨hgrows, hdirty⟩ := grows_add h x
    exact ⟨hgrows, .inl hdirty⟩
  · have hmem : ∀ d ∈ q.delayed, d ∈ q.delayed ++ [⟨now + delay, x⟩] :=
      fun d hd => List.mem_append_left _ hd
    refine ⟨⟨⟨{ h.toConsistent with }, h.pending_or_processing⟩, rfl, .refl _, fun _ hy => hy, ?_⟩,
      .inr ⟨_, List.mem_append_right _ (List.mem_singleton_self _), rfl⟩⟩
    exact fun y hy => hy.imp id fun ⟨d, hd, hitem⟩ => ⟨d, hmem d hd, hitem⟩

omit [DecidableEq ι] in
/-- Which failures are remembered makes no difference. -/
theorem grows_withFailures (h : q.Orderly) (failures : Table ι Nat) :
    q.Grows { q with failures } :=
  ⟨⟨{ h.toConsistent with }, h.pending_or_processing⟩, rfl, .refl _, fun _ hx => hx, fun _ hx => hx⟩

/-- Adding an item after its backoff makes the queue grow, and the item will come up. -/
theorem grows_addRateLimited (h : q.Orderly) (now : Nat) (x : ι) :
    q.Grows (q.addRateLimited now x) ∧ (q.addRateLimited now x).Awaits x := by
  have hfailures := grows_withFailures h (q.failures.insert x (keptCount (q.requeues x + 1)))
  obtain ⟨hgrows, hawaits⟩ :=
    grows_addAfter hfailures.orderly now x (q.backoff.delayFor (keptCount (q.requeues x + 1)))
  exact ⟨hfailures.trans hgrows, hawaits⟩

omit [DecidableEq ι] in
/-- A delayed item that is taken out is due, and all others are left. -/
theorem of_splitDue?_eq_some {l rest : List (Delayed ι)} {d : Delayed ι}
    (h : splitDue? now l = some (d, rest)) : d.due ≤ now ∧ l.Perm (d :: rest) := by
  induction l generalizing rest with
  | nil => cases h
  | cons e l ih =>
    unfold splitDue? at h
    split at h
    · next hdue =>
      cases h
      exact ⟨hdue, .refl _⟩
    · obtain ⟨⟨d', rest'⟩, hsplit, hpair⟩ := Option.map_eq_some_iff.1 h
      cases hpair
      obtain ⟨hdue, hperm⟩ := ih hsplit
      exact ⟨hdue, (hperm.cons e).trans (.swap d e rest')⟩

omit [DecidableEq ι] in
/-- If no delayed item is taken out, none is due. -/
theorem lt_due_of_splitDue?_eq_none {l : List (Delayed ι)} (h : splitDue? now l = none) :
    ∀ d ∈ l, now < d.due := by
  induction l with
  | nil => exact fun d hd => absurd hd List.not_mem_nil
  | cons e l ih =>
    unfold splitDue? at h
    split at h
    · cases h
    · next hdue =>
      intro d hd
      rcases List.mem_cons.1 hd with rfl | hd
      · omega
      · exact ih (Option.map_eq_none_iff.1 h) d hd

/-- When a delayed item is due the queue grows. -/
theorem grows_expire? (h : q.Orderly) (hexpire : q.expire? now = some r) : q.Grows r := by
  unfold expire? at hexpire
  obtain ⟨⟨d, rest⟩, hsplit, rfl⟩ := Option.map_eq_some_iff.1 hexpire
  dsimp only
  have horderly : { q with delayed := rest }.Orderly :=
    ⟨{ h.toConsistent with }, h.pending_or_processing⟩
  obtain ⟨hgrows, hdirty⟩ := grows_add horderly d.item
  refine ⟨hgrows.orderly, hgrows.processing_eq, hgrows.waiting_perm, hgrows.dirty_subset, ?_⟩
  intro x hx
  rcases hx with hx | ⟨e, he, rfl⟩
  · exact .inl (hgrows.dirty_subset x hx)
  · rcases List.mem_cons.1 ((of_splitDue?_eq_some hsplit).2.mem_iff.1 he) with rfl | hrest
    · exact .inl hdirty
    · exact hgrows.awaits _ (.inr ⟨e, hrest, rfl⟩)

/-! ## Handing out -/

omit [DecidableEq ι] in
/-- A getter that is to run is one of those that wait, and the others wait without it. -/
theorem waiting_leave {getter : Nat} (hgetter : getter ∈ q.wakeups.ready) :
    q.waiting.Perm (getter :: { q with wakeups := q.wakeups.leave getter }.waiting) :=
  (List.perm_cons_erase hgetter).append_right _

/-- A getter that finds nothing goes to sleep. -/
theorem serve_of_pending_nil (hrunning : q.shuttingDown = false) (hpending : q.pending = [])
    (getter : Nat) :
    q.serve getter =
      (.nothing,
        { q with
          wakeups := ⟨q.wakeups.sleeping ++ [getter], q.wakeups.ready.erase getter, false⟩ }) := by
  unfold serve take
  simp only [hrunning, hpending, Bool.false_eq_true, if_false]
  rfl

/-- A getter that finds something gets the first pending item. -/
theorem serve_of_pending_cons (hrunning : q.shuttingDown = false) {rest : List ι}
    (hpending : q.pending = x :: rest) (getter : Nat) :
    q.serve getter =
      (.item x,
        { q with
          pending := rest
          dirty := q.dirty.erase x
          processing := if x ∈ q.processing then q.processing else q.processing ++ [x]
          wakeups := ⟨q.wakeups.sleeping, q.wakeups.ready.erase getter, false⟩ }) := by
  unfold serve take
  simp only [hrunning, hpending, Bool.false_eq_true, if_false]
  rfl

/-- A queue that has become another one by handing out an item to a getter. -/
structure HandsOut (q : WorkQueue ι) (getter : Nat) (x : ι) (r : WorkQueue ι) : Prop where
  orderly : r.Orderly
  not_processing : x ∉ q.processing
  processing_eq : r.processing = q.processing ++ [x]
  waiting_perm : q.waiting.Perm (getter :: r.waiting)
  dirty_of_ne : ∀ y ∈ q.dirty, y ≠ x → y ∈ r.dirty
  delayed_eq : r.delayed = q.delayed

omit [DecidableEq ι] in
/-- A getter may go to sleep while nothing is pending. -/
theorem grows_sleep (h : q.Orderly) (hpending : q.pending = []) {getter : Nat}
    (hgetter : getter ∈ q.wakeups.ready) (kept : Bool) :
    q.Grows { q with
      wakeups := ⟨q.wakeups.sleeping ++ [getter], q.wakeups.ready.erase getter, kept⟩ } := by
  have hattended : ∀ w : Wakeups, { q with wakeups := w }.Attended := by
    intro w _
    show q.pending.length ≤ _
    rw [hpending]
    exact Nat.zero_le _
  refine ⟨⟨{ h.toConsistent with attended := hattended _ }, h.pending_or_processing⟩, rfl, ?_,
    fun _ hx => hx, fun _ hx => hx⟩
  -- the getter has changed places
  refine ((waiting_leave hgetter).trans ?_).symm
  show (getter :: (q.wakeups.ready.erase getter ++ q.wakeups.sleeping)).Perm
    (q.wakeups.ready.erase getter ++ (q.wakeups.sleeping ++ [getter]))
  rw [← List.append_assoc]
  exact (List.perm_append_singleton getter _).symm

/-- The first pending item may be handed out. -/
theorem handsOut_of_pending_cons (h : q.Orderly) {rest : List ι} (hpending : q.pending = x :: rest)
    {getter : Nat} (hgetter : getter ∈ q.wakeups.ready) (kept : Bool) :
    q.HandsOut getter x { q with
      pending := rest
      dirty := q.dirty.erase x
      processing := q.processing ++ [x]
      wakeups := ⟨q.wakeups.sleeping, q.wakeups.ready.erase getter, kept⟩ } := by
  have hmem : x ∈ q.pending := hpending ▸ List.mem_cons_self
  have hprocessing : x ∉ q.processing := h.not_processing_of_pending x hmem
  have hseparated := h.separated.handOut hpending
  refine ⟨Separated.orderly (hseparated.of_items_eq rfl) h.running fun hsleeping => ?_,
    hprocessing, rfl, waiting_leave hgetter, fun y hy hyx => (List.mem_erase_of_ne hyx).2 hy, rfl⟩
  -- one item less is pending, and one getter less is awake
  have hle := h.attended hsleeping
  have hlength := List.length_erase_of_mem hgetter
  rw [hpending, List.length_cons] at hle
  show rest.length ≤ (q.wakeups.ready.erase getter).length
  omega

/-- All that can come of letting a getter run: there is nothing and it goes to sleep, or it gets an
item. -/
theorem serve_cases (h : q.Orderly) {getter : Nat} (hgetter : getter ∈ q.wakeups.ready) :
    (∃ r, q.serve getter = (.nothing, r) ∧ q.Grows r) ∨
      ∃ x r, q.serve getter = (.item x, r) ∧ q.HandsOut getter x r := by
  cases hpending : q.pending with
  | nil =>
    have hserve := serve_of_pending_nil h.running hpending getter
    exact .inl ⟨_, hserve, grows_sleep h hpending hgetter false⟩
  | cons x rest =>
    have hhandsOut := handsOut_of_pending_cons h hpending hgetter false
    have hserve := serve_of_pending_cons h.running hpending getter
    rw [if_neg hhandsOut.not_processing] at hserve
    exact .inr ⟨x, _, hserve, hhandsOut⟩

/-! ## Ends of processing -/

/-- A queue that has become another one by additions and by the end of processing an item. -/
structure Releases (q : WorkQueue ι) (x : ι) (r : WorkQueue ι) : Prop where
  orderly : r.Orderly
  processing_eq : r.processing = q.processing.erase x
  waiting_perm : r.waiting.Perm q.waiting
  dirty_subset : ∀ y ∈ q.dirty, y ∈ r.dirty
  awaits : ∀ y, q.Awaits y → r.Awaits y

theorem Grows.releases (h : q.Grows r) (h' : r.Releases x s) : q.Releases x s where
  orderly := h'.orderly
  processing_eq := h.processing_eq ▸ h'.processing_eq
  waiting_perm := h'.waiting_perm.trans h.waiting_perm
  dirty_subset := fun y hy => h'.dirty_subset y (h.dirty_subset y hy)
  awaits := fun y hy => h'.awaits y (h.awaits y hy)

/-- When an item is done it is not processed any more, and it is pending if it is dirty. -/
theorem releases_done (h : q.Orderly) (hx : x ∈ q.processing) : q.Releases x (q.done x) := by
  have hseparated := h.separated.done hx
  unfold done at hseparated ⊢
  by_cases hdirty : x ∈ q.dirty
  · -- it was added while it was being processed
    have hpush : x ∈ q.dirty ∧ ¬ q.shuttingDown = true := ⟨hdirty, by simp [h.running]⟩
    rw [if_pos hpush] at hseparated ⊢
    have hattended :=
      attended_push (q := { q with processing := q.processing.erase x }) h.attended x
    exact ⟨hseparated.orderly h.running hattended, rfl, waiting_push _ x, fun _ hy => hy,
      fun _ hy => hy⟩
  · have hpush : ¬ (x ∈ q.dirty ∧ ¬ q.shuttingDown = true) := fun hboth => hdirty hboth.1
    rw [if_neg hpush] at hseparated ⊢
    exact ⟨hseparated.orderly h.running h.attended, rfl, .refl _, fun _ hy => hy, fun _ hy => hy⟩

omit [DecidableEq ι] in
/-- Letting a getter in keeps a queue orderly. -/
theorem orderly_enter (h : q.Orderly) (getter : Nat) :
    { q with wakeups := q.wakeups.enter getter }.Orderly :=
  ⟨{ h.toConsistent with
      attended := fun hsleeping => by
        have hle := h.attended hsleeping
        show q.pending.length ≤ (q.wakeups.ready ++ [getter]).length
        rw [List.length_append]
        omega },
    h.pending_or_processing⟩

omit [DecidableEq ι] in
theorem waiting_enter (q : WorkQueue ι) (getter : Nat) :
    { q with wakeups := q.wakeups.enter getter }.waiting.Perm (getter :: q.waiting) := by
  show (q.wakeups.ready ++ [getter] ++ q.wakeups.sleeping).Perm
    (getter :: (q.wakeups.ready ++ q.wakeups.sleeping))
  rw [List.append_assoc, List.singleton_append]
  exact List.perm_middle

end Handover.WorkQueue
