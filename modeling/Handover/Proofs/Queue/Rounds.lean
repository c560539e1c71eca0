import Handover.Proofs.Queue.History

/-!
# Rounds of service

To one item a history of a queue is a sequence of additions and hand-outs (`trace`). Once an item
has been added a hand-out is owed; further additions change nothing until it comes, and a hand-out
that is not owed never comes (`Mark.settle?`). What is owed at any time are the dirty items
(`settle?_trace`). So there is one hand-out for each round of additions, a round being all additions
between two hand-outs (`Mark.count_handed`).

Additions that are put off go to the delayed items and leave them when they are due
(`postponed_perm`).
-/

namespace Handover

/-- What happens to an item: it is added, or it is handed out. -/
inductive Mark where
  | added
  | handed
  deriving DecidableEq

namespace Mark

/-- Whether a hand-out is owed after some marks, if one was owed before them or not; nothing is
answered if one comes that is not owed. -/
def settle? : Bool → List Mark → Option Bool
  | owed, [] => some owed
  | _, added :: marks => settle? true marks
  | true, handed :: marks => settle? false marks
  | false, handed :: _ => none

/-- The number of rounds of additions that begin; an addition begins a round if no hand-out is
owed. -/
def rounds : Bool → List Mark → Nat
  | _, [] => 0
  | true, added :: marks => rounds true marks
  | false, added :: marks => rounds true marks + 1
  | _, handed :: marks => rounds false marks

variable {owed later : Bool} {marks rest : List Mark}

theorem settle?_append (owed : Bool) (marks rest : List Mark) :
    settle? owed (marks ++ rest) = (settle? owed marks).bind (settle? · rest) := by
  induction marks generalizing owed with
  | nil => rfl
  | cons mark marks ih =>
    cases mark with
    | added => exact ih true
    | handed =>
      cases owed with
      | true => exact ih false
      | false => rfl

/-- What is owed remains so until a hand-out comes. -/
theorem settle?_of_handed_not_mem (h : handed ∉ marks) : settle? true marks = some true := by
  induction marks with
  | nil => rfl
  | cons mark marks ih =>
    cases mark with
    | added => exact ih fun hmem => h (List.mem_cons_of_mem _ hmem)
    | handed => exact absurd List.mem_cons_self h

/-- What was not owed is owed because of an addition. -/
theorem added_mem_of_settle? (h : settle? false marks = some true) : added ∈ marks := by
  cases marks with
  | nil => cases h
  | cons mark marks =>
    cases mark with
    | added => exact List.mem_cons_self
    | handed => cases h

/-- A hand-out that came was owed. -/
theorem settle?_eq_some_true (h : settle? owed (marks ++ handed :: rest) = some later) :
    settle? owed marks = some true := by
  rw [settle?_append] at h
  obtain ⟨before, hbefore, hrest⟩ := Option.bind_eq_some_iff.1 h
  cases before with
  | true => exact hbefore
  | false => cases hrest

/-- After an addition a hand-out is owed until it comes. -/
theorem eq_true_of_added (h : settle? owed (marks ++ added :: rest) = some later)
    (hrest : handed ∉ rest) : later = true := by
  rw [settle?_append] at h
  obtain ⟨before, -, hafter⟩ := Option.bind_eq_some_iff.1 h
  have howed : settle? before (added :: rest) = settle? true rest := by cases before <;> rfl
  rw [howed, settle?_of_handed_not_mem hrest] at hafter
  exact (Option.some.inj hafter).symm

/-- After a hand-out none is owed. -/
theorem settle?_after_handed (h : settle? owed (marks ++ handed :: rest) = some later) :
    settle? false rest = some later := by
  have hbefore := settle?_eq_some_true h
  rw [settle?_append, hbefore] at h
  exact h

/-- There is one hand-out for each round, but for one that is still owed. -/
theorem count_handed (h : settle? owed marks = some later) :
    marks.count handed + later.toNat = rounds owed marks + owed.toNat := by
  induction marks generalizing owed with
  | nil =>
    cases h
    rw [List.count_nil, rounds]
  | cons mark marks ih =>
    cases mark with
    | added =>
      have hrest : marks.count handed + later.toNat = rounds true marks + 1 := ih h
      rw [List.count_cons_of_ne (by decide), hrest]
      cases owed with
      | true => rfl
      | false => rfl
    | handed =>
      cases owed with
      | false => cases h
      | true =>
        have hrest : marks.count handed + later.toNat = rounds false marks + 0 := ih h
        rw [List.count_cons_self, rounds, Bool.toNat_true]
        omega

end Mark

namespace WorkQueue

variable {ι : Type} [DecidableEq ι]

/-! ## What operations mean to an item -/

/-- The item that one operation adds now. -/
def added? (q : WorkQueue ι) : Operation ι → Option ι
  | .add x => some x
  | .addAfter _ x delay => if delay = 0 then some x else none
  | .addRateLimited _ x =>
    if q.backoff.delayFor (keptCount (q.requeues x + 1)) = 0 then some x else none
  | .expire now => (splitDue? now q.delayed).map (·.1.item)
  | .take | .enter _ | .serve _ | .done _ | .forget _ | .shutdown => none

/-- The addition that one operation puts off. -/
def postponed? (q : WorkQueue ι) : Operation ι → Option (Delayed ι)
  | .addAfter now x delay => if delay = 0 then none else some ⟨now + delay, x⟩
  | .addRateLimited now x =>
    let delay := q.backoff.delayFor (keptCount (q.requeues x + 1))
    if delay = 0 then none else some ⟨now + delay, x⟩
  | .add _ | .take | .enter _ | .serve _ | .done _ | .forget _ | .expire _ | .shutdown => none

/-- The addition that was put off and that one operation makes. -/
def expired? (q : WorkQueue ι) : Operation ι → Option (Delayed ι)
  | .expire now => (splitDue? now q.delayed).map Prod.fst
  | .add _ | .addAfter .. | .addRateLimited .. | .take | .enter _ | .serve _ | .done _ | .forget _
  | .shutdown => none

/-- What one operation means to an item. -/
def marks (q : WorkQueue ι) (x : ι) (op : Operation ι) : List Mark :=
  if q.added? op = some x then [.added]
  else if q.handed? op = some x then [.handed]
  else []

/-- What the operations of a history give, in order. -/
def collect {α : Type} (f : WorkQueue ι → Operation ι → List α) (q : WorkQueue ι) :
    List (Operation ι) → List α
  | [] => []
  | op :: ops => f q op ++ collect f (q.next op) ops

/-- What a history means to an item. -/
def trace (q : WorkQueue ι) (x : ι) (ops : List (Operation ι)) : List Mark :=
  q.collect (marks · x ·) ops

/-- The additions that a history puts off. -/
def postponed (q : WorkQueue ι) (ops : List (Operation ι)) : List (Delayed ι) :=
  q.collect (fun q op => (q.postponed? op).toList) ops

/-- The additions that were put off and that a history makes. -/
def expired (q : WorkQueue ι) (ops : List (Operation ι)) : List (Delayed ι) :=
  q.collect (fun q op => (q.expired? op).toList) ops

variable {q r : WorkQueue ι} {op : Operation ι} {ops : List (Operation ι)} {x y : ι}

/-! ## Dirty items -/

/-- What an operation does to the dirty items: it adds one, hands one out or leaves them. -/
inductive Entry (q r : WorkQueue ι) : Option ι → Option ι → Prop
  | added (y : ι) (h : ∀ x, x ∈ r.dirty ↔ x = y ∨ x ∈ q.dirty) : Entry q r (some y) none
  | handed (y : ι) (hy : y ∈ q.dirty) (h : ∀ x, x ∈ r.dirty ↔ x ≠ y ∧ x ∈ q.dirty) :
      Entry q r none (some y)
  | other (h : r.dirty = q.dirty) : Entry q r none none

theorem mem_dirty_add (hrunning : q.shuttingDown = false) :
    x ∈ (q.add y).dirty ↔ x = y ∨ x ∈ q.dirty := by
  unfold add
  by_cases hdirty : y ∈ q.dirty
  · rw [if_pos (.inr hdirty)]
    constructor
    · exact .inr
    · intro hx
      rcases hx with rfl | hx
      · exact hdirty
      · exact hx
  · rw [if_neg (by simp [hrunning, hdirty])]
    have happend : x ∈ q.dirty ++ [y] ↔ x = y ∨ x ∈ q.dirty := by
      rw [List.mem_append, List.mem_singleton, or_comm]
    dsimp only
    split
    · exact happend
    · exact happend

theorem entry_add (hrunning : q.shuttingDown = false) (hdirty : r.dirty = q.dirty)
    (hshut : r.shuttingDown = q.shuttingDown) (y : ι) : q.Entry (r.add y) (some y) none := by
  refine .added y ?_
  intro x
  rw [mem_dirty_add (hshut.trans hrunning), hdirty]

theorem entry_addAfter (hrunning : q.shuttingDown = false) (hdirty : r.dirty = q.dirty)
    (hshut : r.shuttingDown = q.shuttingDown) (now : Nat) (y : ι) (delay : Nat) :
    q.Entry (r.addAfter now y delay) (if delay = 0 then some y else none) none := by
  unfold addAfter
  rw [if_neg (by simp [hshut, hrunning])]
  split
  · exact entry_add hrunning hdirty hshut y
  · exact .other hdirty

theorem entry_of_pending_cons (h : q.Orderly) {rest : List ι} (hpending : q.pending = y :: rest)
    (hdirty : r.dirty = q.dirty.erase y) : q.Entry r none (some y) := by
  have hy : y ∈ q.dirty := h.dirty_of_pending y (hpending ▸ List.mem_cons_self)
  refine .handed y hy ?_
  intro x
  rw [hdirty, h.dirty_nodup.mem_erase_iff]

/-- Who asks while nothing is pending gets nothing. -/
theorem take_of_pending_nil (hrunning : q.shuttingDown = false) (hpending : q.pending = []) :
    q.take = (.nothing, { q with wakeups := { q.wakeups with kept := false } }) := by
  unfold take
  simp only [hrunning, hpending, Bool.false_eq_true, if_false]

/-- Who asks while something is pending gets the first item. -/
theorem take_of_pending_cons (hrunning : q.shuttingDown = false) {rest : List ι}
    (hpending : q.pending = x :: rest) :
    q.take =
      (.item x,
        { q with
          pending := rest
          dirty := q.dirty.erase x
          processing := if x ∈ q.processing then q.processing else q.processing ++ [x]
          wakeups := { q.wakeups with kept := false } }) := by
  unfold take
  simp only [hrunning, hpending, Bool.false_eq_true, if_false]

theorem entry_take (h : q.Orderly) : q.Entry q.take.2 none q.take.1.item? := by
  cases hpending : q.pending with
  | nil =>
    rw [take_of_pending_nil h.running hpending]
    exact .other rfl
  | cons y rest =>
    rw [take_of_pending_cons h.running hpending]
    exact entry_of_pending_cons h hpending rfl

theorem entry_serve (h : q.Orderly) (getter : Nat) :
    q.Entry (q.serve getter).2 none (q.serve getter).1.item? := by
  cases hpending : q.pending with
  | nil =>
    rw [serve_of_pending_nil h.running hpending]
    exact .other rfl
  | cons y rest =>
    rw [serve_of_pending_cons h.running hpending]
    exact entry_of_pending_cons h hpending rfl

@[simp]
theorem dirty_done (q : WorkQueue ι) (x : ι) : (q.done x).dirty = q.dirty := by
  unfold done
  dsimp only
  split <;> rfl

theorem entry_expire (hrunning : q.shuttingDown = false) (now : Nat) :
    q.Entry ((q.expire? now).getD q) ((splitDue? now q.delayed).map (·.1.item)) none := by
  unfold expire?
  cases splitDue? now q.delayed with
  | none => exact .other rfl
  | some found => exact entry_add (r := { q with delayed := found.2 }) hrunning rfl rfl found.1.item

/-- An operation adds an item, hands one out, or does neither. -/
theorem entry_next (h : q.Orderly) (hop : op ≠ .shutdown) :
    q.Entry (q.next op) (q.added? op) (q.handed? op) := by
  cases op with
  | add x => exact entry_add h.running rfl rfl x
  | take => exact entry_take h
  | enter getter => exact .other rfl
  | serve getter => exact entry_serve h getter
  | done x => exact .other (dirty_done q x)
  | forget x => exact .other rfl
  | addAfter now x delay => exact entry_addAfter h.running rfl rfl now x delay
  | addRateLimited now x =>
    exact entry_addAfter
      (r := { q with failures := q.failures.insert x (keptCount (q.requeues x + 1)) })
      h.running rfl rfl now x (q.backoff.delayFor (keptCount (q.requeues x + 1)))
  | expire now => exact entry_expire h.running now
  | shutdown => exact absurd rfl hop

/-- What an operation means to an item settles what is owed: a hand-out to each dirty item. -/
theorem settle?_marks (h : q.Orderly) (hop : op ≠ .shutdown) (x : ι) :
    Mark.settle? (x ∈ q.dirty) (q.marks x op) = some (decide (x ∈ (q.next op).dirty)) := by
  have hentry := entry_next h hop
  unfold marks
  generalize q.added? op = added?, q.handed? op = handed? at hentry
  cases hentry with
  | added y hdirty =>
    by_cases hx : y = x
    · rw [if_pos (congrArg some hx), decide_eq_true ((hdirty x).2 (.inl hx.symm))]
      rfl
    · have hne : some y ≠ some x := fun heq => hx (Option.some.inj heq)
      have hsame : x ∈ (q.next op).dirty ↔ x ∈ q.dirty :=
        (hdirty x).trans (or_iff_right (Ne.symm hx))
      rw [if_neg hne, if_neg (Option.some_ne_none x).symm, decide_eq_decide.2 hsame]
      rfl
  | handed y hy hdirty =>
    rw [if_neg (Option.some_ne_none x).symm]
    by_cases hx : y = x
    · have hgone : x ∉ (q.next op).dirty := fun hmem => ((hdirty x).1 hmem).1 hx.symm
      rw [if_pos (congrArg some hx), decide_eq_true (hx ▸ hy), decide_eq_false hgone]
      rfl
    · have hne : some y ≠ some x := fun heq => hx (Option.some.inj heq)
      have hsame : x ∈ (q.next op).dirty ↔ x ∈ q.dirty :=
        (hdirty x).trans (and_iff_right (Ne.symm hx))
      rw [if_neg hne, decide_eq_decide.2 hsame]
      rfl
  | other hdirty =>
    rw [if_neg (Option.some_ne_none x).symm, if_neg (Option.some_ne_none x).symm, hdirty]
    rfl

/-! ## Orderly histories -/

omit [DecidableEq ι] in
/-- Whoever is asleep, nothing is amiss while nothing is pending. -/
theorem attended_of_pending_nil (h : q.pending = []) : q.Attended := by
  intro _
  rw [h]
  exact Nat.zero_le _

theorem attended_take (h : q.Orderly) : q.take.2.Attended := by
  cases hpending : q.pending with
  | nil =>
    rw [take_of_pending_nil h.running hpending]
    exact attended_of_pending_nil hpending
  | cons x rest =>
    rw [take_of_pending_cons h.running hpending]
    intro hsleeping
    have hle := h.attended hsleeping
    rw [hpending, List.length_cons] at hle
    show rest.length ≤ q.wakeups.ready.length
    omega

theorem attended_serve (h : q.Orderly) (getter : Nat) : (q.serve getter).2.Attended := by
  cases hpending : q.pending with
  | nil =>
    rw [serve_of_pending_nil h.running hpending]
    exact attended_of_pending_nil hpending
  | cons x rest =>
    rw [serve_of_pending_cons h.running hpending]
    intro hsleeping
    -- one item less is pending, and at most one getter less is awake
    have hle := h.attended hsleeping
    have hlength : q.wakeups.ready.length - 1 ≤ (q.wakeups.ready.erase getter).length :=
      List.le_length_erase
    rw [hpending, List.length_cons] at hle
    show rest.length ≤ (q.wakeups.ready.erase getter).length
    omega

/-- Every permitted operation but the shutdown keeps a queue orderly. -/
theorem Orderly.next (h : q.Orderly) (hpermits : q.Permits op) (hop : op ≠ .shutdown) :
    (q.next op).Orderly := by
  have hseparated := h.separated.after_change (change_next h.separated hpermits)
  refine hseparated.orderly ((shuttingDown_next hop).trans h.running) ?_
  cases op with
  | add x => exact (grows_add h x).1.orderly.attended
  | take => exact attended_take h
  | enter getter => exact (orderly_enter h getter).attended
  | serve getter => exact attended_serve h getter
  | done x => exact (releases_done h (hpermits x rfl)).orderly.attended
  | forget x => exact h.attended
  | addAfter now x delay => exact (grows_addAfter h now x delay).1.orderly.attended
  | addRateLimited now x => exact (grows_addRateLimited h now x).1.orderly.attended
  | expire now =>
    cases hexpire : q.expire? now with
    | none =>
      show ((q.expire? now).getD q).Attended
      rw [hexpire]
      exact h.attended
    | some r =>
      show ((q.expire? now).getD q).Attended
      rw [hexpire]
      exact (grows_expire? h hexpire).orderly.attended
  | shutdown => exact absurd rfl hop

theorem Orderly.after (h : q.Orderly) (hops : q.PermitsAll ops) (hshutdown : .shutdown ∉ ops) :
    (q.after ops).Orderly := by
  induction ops generalizing q with
  | nil => exact h
  | cons op ops ih =>
    have hop : op ≠ .shutdown := fun heq => hshutdown (heq ▸ List.mem_cons_self)
    have hrest : .shutdown ∉ ops := fun hmem => hshutdown (List.mem_cons_of_mem _ hmem)
    exact ih (h.next hops.1 hop) hops.2 hrest

/-- Over a history what is owed is settled: a hand-out is owed to each dirty item. -/
theorem settle?_trace (h : q.Orderly) (hops : q.PermitsAll ops) (hshutdown : .shutdown ∉ ops)
    (x : ι) : Mark.settle? (x ∈ q.dirty) (q.trace x ops) =
      some (decide (x ∈ (q.after ops).dirty)) := by
  induction ops generalizing q with
  | nil => rfl
  | cons op ops ih =>
    have hop : op ≠ .shutdown := fun heq => hshutdown (heq ▸ List.mem_cons_self)
    have hrest : .shutdown ∉ ops := fun hmem => hshutdown (List.mem_cons_of_mem _ hmem)
    have htrace : q.trace x (op :: ops) = q.marks x op ++ (q.next op).trace x ops := rfl
    rw [htrace, Mark.settle?_append, settle?_marks h hop x]
    exact ih (h.next hops.1 hop) hops.2 hrest

/-! ## Delays -/

theorem delayed_add (q : WorkQueue ι) (x : ι) : (q.add x).delayed = q.delayed := by
  unfold add
  split
  · rfl
  · dsimp only
    split <;> rfl

theorem delayed_done (q : WorkQueue ι) (x : ι) : (q.done x).delayed = q.delayed := by
  unfold done
  dsimp only
  split <;> rfl

theorem delayed_take (h : q.Orderly) : q.take.2.delayed = q.delayed := by
  cases hpending : q.pending with
  | nil => rw [take_of_pending_nil h.running hpending]
  | cons x rest => rw [take_of_pending_cons h.running hpending]

theorem delayed_serve (q : WorkQueue ι) (getter : Nat) :
    (q.serve getter).2.delayed = q.delayed := by
  cases hshut : q.shuttingDown with
  | true => rw [serve_of_shuttingDown hshut]
  | false =>
    cases hpending : q.pending with
    | nil => rw [serve_of_pending_nil hshut hpending]
    | cons x rest => rw [serve_of_pending_cons hshut hpending]

theorem delayed_addAfter (hrunning : q.shuttingDown = false) (now : Nat) (x : ι) (delay : Nat) :
    let put : Option (Delayed ι) := if delay = 0 then none else some ⟨now + delay, x⟩
    (q.addAfter now x delay).delayed = q.delayed ++ put.toList := by
  dsimp only
  unfold addAfter
  rw [if_neg (by simp [hrunning])]
  split
  · rw [delayed_add]
    exact (List.append_nil _).symm
  · rfl

/-- An operation puts an addition off, makes one that was put off, or leaves them. -/
theorem delayed_next_perm (h : q.Orderly) (op : Operation ι) :
    (q.delayed ++ (q.postponed? op).toList).Perm
      ((q.expired? op).toList ++ (q.next op).delayed) := by
  have hstay : ∀ l : List (Delayed ι), l = q.delayed → (q.delayed ++ []).Perm ([] ++ l) := by
    intro l hl
    rw [hl]
    exact List.perm_append_comm
  cases op with
  | add x => exact hstay _ (delayed_add q x)
  | take => exact hstay _ (delayed_take h)
  | enter getter => exact hstay _ rfl
  | serve getter => exact hstay _ (delayed_serve q getter)
  | done x => exact hstay _ (delayed_done q x)
  | forget x => exact hstay _ rfl
  | shutdown => exact hstay _ rfl
  | addAfter now x delay => exact .of_eq (delayed_addAfter h.running now x delay).symm
  | addRateLimited now x =>
    have hfailures := grows_withFailures h (q.failures.insert x (keptCount (q.requeues x + 1)))
    exact .of_eq (delayed_addAfter hfailures.orderly.running now x
      (q.backoff.delayFor (keptCount (q.requeues x + 1)))).symm
  | expire now =>
    show (q.delayed ++ []).Perm (((splitDue? now q.delayed).map Prod.fst).toList ++
      ((q.expire? now).getD q).delayed)
    unfold expire?
    cases hsplit : splitDue? now q.delayed with
    | none => exact hstay _ rfl
    | some found =>
      have hperm := (of_splitDue?_eq_some hsplit).2
      rw [List.append_nil]
      show q.delayed.Perm ([found.1] ++ ({ q with delayed := found.2 }.add found.1.item).delayed)
      rw [delayed_add]
      exact hperm

/-- Over a history no addition that is put off is lost or made twice. -/
theorem postponed_perm (h : q.Orderly) (hops : q.PermitsAll ops) (hshutdown : .shutdown ∉ ops) :
    (q.delayed ++ q.postponed ops).Perm (q.expired ops ++ (q.after ops).delayed) := by
  induction ops generalizing q with
  | nil => exact List.perm_append_comm
  | cons op ops ih =>
    have hop : op ≠ .shutdown := fun heq => hshutdown (heq ▸ List.mem_cons_self)
    have hrest : .shutdown ∉ ops := fun hmem => hshutdown (List.mem_cons_of_mem _ hmem)
    have hfirst := (delayed_next_perm h op).append_right ((q.next op).postponed ops)
    have hmore := (ih (h.next hops.1 hop) hops.2 hrest).append_left (q.expired? op).toList
    rw [List.append_assoc, List.append_assoc] at hfirst
    exact (hfirst.trans hmore).trans (.of_eq (List.append_assoc ..).symm)

/-! ## Getters that wait -/

theorem waiting_take (h : q.Orderly) : q.take.2.waiting = q.waiting := by
  cases hpending : q.pending with
  | nil =>
    rw [take_of_pending_nil h.running hpending]
    rfl
  | cons x rest =>
    rw [take_of_pending_cons h.running hpending]
    rfl

/-- Who runs gets an item or goes to sleep. -/
theorem mem_waiting_serve (h : q.Orderly) (getter : Nat) :
    getter ∈ (q.serve getter).2.waiting ∨ ∃ x, (q.serve getter).1 = .item x := by
  cases hpending : q.pending with
  | nil =>
    rw [serve_of_pending_nil h.running hpending]
    have hasleep : getter ∈ q.wakeups.sleeping ++ [getter] :=
      List.mem_append_right _ (List.mem_singleton_self getter)
    exact .inl (List.mem_append_right _ hasleep)
  | cons x rest =>
    rw [serve_of_pending_cons h.running hpending]
    exact .inr ⟨x, rfl⟩

/-- Who does not run waits as before. -/
theorem mem_waiting_serve_of_ne (h : q.Orderly) {getter other : Nat} (hne : getter ≠ other)
    (hgetter : getter ∈ q.waiting) : getter ∈ (q.serve other).2.waiting := by
  have hstays : getter ∈ q.wakeups.ready.erase other ++ q.wakeups.sleeping :=
    List.mem_append.2 ((List.mem_append.1 hgetter).imp (List.mem_erase_of_ne hne).2 id)
  cases hpending : q.pending with
  | nil =>
    rw [serve_of_pending_nil h.running hpending]
    show getter ∈ q.wakeups.ready.erase other ++ (q.wakeups.sleeping ++ [other])
    rw [← List.append_assoc]
    exact List.mem_append_left _ hstays
  | cons x rest =>
    rw [serve_of_pending_cons h.running hpending]
    exact hstays

theorem ready_serve (q : WorkQueue ι) (getter : Nat) :
    (q.serve getter).2.wakeups.ready = q.wakeups.ready.erase getter := by
  cases hshut : q.shuttingDown with
  | true => rw [serve_of_shuttingDown hshut]
  | false =>
    cases hpending : q.pending with
    | nil => rw [serve_of_pending_nil hshut hpending]
    | cons x rest => rw [serve_of_pending_cons hshut hpending]

/-- An addition wakes one getter at most. -/
theorem length_ready_add_le (q : WorkQueue ι) (x : ι) :
    (q.add x).wakeups.ready.length ≤ q.wakeups.ready.length + 1 := by
  unfold add push Wakeups.wakeOne
  split
  · omega
  dsimp only
  split
  · show q.wakeups.ready.length ≤ _
    omega
  · cases q.wakeups.sleeping with
    | nil =>
      show q.wakeups.ready.length ≤ _
      omega
    | cons getter rest =>
      show (q.wakeups.ready ++ [getter]).length ≤ _
      rw [List.length_append]
      exact Nat.le_refl _

/-- The end of a delay leaves one delayed item less and wakes one getter at most. -/
theorem length_expire? {now : Nat} (h : q.expire? now = some r) :
    r.delayed.length + 1 = q.delayed.length ∧
      r.wakeups.ready.length ≤ q.wakeups.ready.length + 1 := by
  unfold expire? at h
  obtain ⟨⟨d, rest⟩, hsplit, rfl⟩ := Option.map_eq_some_iff.1 h
  have hperm := (of_splitDue?_eq_some hsplit).2.length_eq
  refine ⟨?_, length_ready_add_le { q with delayed := rest } d.item⟩
  dsimp only
  rw [delayed_add, hperm, List.length_cons]

/-- A getter that looks for an item goes on to do so unless it runs and gets one. -/
theorem mem_waiting_next (h : q.Orderly) (hpermits : q.Permits op) (hop : op ≠ .shutdown)
    {getter : Nat} (hgetter : getter ∈ q.waiting) :
    getter ∈ (q.next op).waiting ∨ op = .serve getter := by
  cases op with
  | add x => exact .inl ((grows_add h x).1.waiting_perm.mem_iff.2 hgetter)
  | take => exact .inl (waiting_take h ▸ hgetter)
  | enter other => exact .inl ((waiting_enter q other).mem_iff.2 (List.mem_cons_of_mem _ hgetter))
  | serve other =>
    by_cases hother : getter = other
    · exact .inr (congrArg _ hother.symm)
    · exact .inl (mem_waiting_serve_of_ne h hother hgetter)
  | done x => exact .inl ((releases_done h (hpermits x rfl)).waiting_perm.mem_iff.2 hgetter)
  | forget x => exact .inl hgetter
  | addAfter now x delay =>
    exact .inl ((grows_addAfter h now x delay).1.waiting_perm.mem_iff.2 hgetter)
  | addRateLimited now x =>
    exact .inl ((grows_addRateLimited h now x).1.waiting_perm.mem_iff.2 hgetter)
  | expire now =>
    show getter ∈ ((q.expire? now).getD q).waiting ∨ _
    cases hexpire : q.expire? now with
    | none => exact .inl hgetter
    | some r => exact .inl ((grows_expire? h hexpire).waiting_perm.mem_iff.2 hgetter)
  | shutdown => exact absurd rfl hop

end WorkQueue

end Handover
