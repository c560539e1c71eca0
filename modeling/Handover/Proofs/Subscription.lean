import Handover.Subscription
import Handover.Proofs.Platform.News
import Handover.Proofs.Queue.Rounds
import Handover.Proofs.Registry

/-!
# What subscriptions bring about

A subscription `Follows` a kind if it reads on in the log of the kind. What it has not read is
`Unread` news. Whatever a subscription does next, news that were unread are still unread or the
owner of the object has been made pending (`Unread.after_step`); an object that changes is news for
whoever follows its kind (`Follows.object?_eq_or_unread`).
-/

namespace Handover.Subscription

/-- A subscription reads the log of a kind, at a position in it. -/
structure Reads (b : Subscription) (position : Nat) : Prop where
  running : b.ended = false
  receiver_eq : b.receiver = .following b.kind position

/-- A subscription follows a kind and has not read further than the log goes. -/
def Follows (b : Subscription) (kind : WorkloadKind) (p : Platform) : Prop :=
  b.kind = kind ∧ ∃ position, b.Reads position ∧ position ≤ (p.logs.get kind).size

/-- There are news of an object that a subscription is still to read. -/
def Unread (b : Subscription) (r : ResourceRef) (p : Platform) : Prop :=
  r.kind? = some b.kind ∧ ∃ position, b.Reads position ∧ p.Tells b.kind position r

variable {b c : Subscription} {kind : WorkloadKind} {position : Nat} {p q : Platform}
  {r : ResourceRef} {g : Registry} {queue rest : WorkQueue MigrationId} {id : MigrationId}

/-! ## While the platform evolves -/

theorem Follows.after_evolves (h : b.Follows kind p) (hevolves : p.Evolves q) :
    b.Follows kind q := by
  obtain ⟨hkind, position, hreads, hle⟩ := h
  exact ⟨hkind, position, hreads, hle.trans (hevolves.size_log_le kind)⟩

theorem Unread.after_evolves (h : b.Unread r p) (hevolves : p.Evolves q) : b.Unread r q := by
  obtain ⟨hkind, position, hreads, htells⟩ := h
  exact ⟨hkind, position, hreads, htells.after_evolves hevolves⟩

/-- An object that changes is news for whoever follows its kind. -/
theorem Follows.object?_eq_or_unread (h : b.Follows kind p) (hp : p.Sound) (hevolves : p.Evolves q)
    (hr : r.kind? = some kind) : q.object? r = p.object? r ∨ b.Unread r q := by
  obtain ⟨rfl, position, hreads, hle⟩ := h
  rcases hevolves.object?_eq_or_tells hp hr hle with heq | htells
  · exact .inl heq
  · exact .inr ⟨hr, position, hreads, htells⟩

/-- Who starts to follow a kind follows it. -/
theorem follows_start (kind : WorkloadKind) (p : Platform) :
    (start kind (p.watch kind)).Follows kind p :=
  ⟨rfl, _, ⟨rfl, rfl⟩, le_refl _⟩

/-! ## Deliveries -/

theorem shuttingDown_addAll (queue : WorkQueue MigrationId) (ids : List MigrationId) :
    (addAll queue ids).shuttingDown = queue.shuttingDown := by
  induction ids generalizing queue with
  | nil => rfl
  | cons id ids ih => exact (ih (queue.add id)).trans (queue.shuttingDown_add id)

/-- Until the queue shuts down, making migrations pending makes them dirty, and no others. -/
theorem mem_dirty_addAll (hrunning : queue.shuttingDown = false) (ids : List MigrationId) :
    id ∈ (addAll queue ids).dirty ↔ id ∈ ids ∨ id ∈ queue.dirty := by
  induction ids generalizing queue with
  | nil => simp [addAll]
  | cons other ids ih =>
    have hadd : (queue.add other).shuttingDown = false :=
      (queue.shuttingDown_add other).trans hrunning
    show id ∈ (addAll (queue.add other) ids).dirty ↔ _
    rw [ih hadd, WorkQueue.mem_dirty_add hrunning, List.mem_cons]
    tauto

/-- Afterwards nobody is made dirty. -/
theorem addAll_of_shuttingDown (hshut : queue.shuttingDown = true) (ids : List MigrationId) :
    addAll queue ids = queue := by
  induction ids with
  | nil => rfl
  | cons id ids ih =>
    show addAll (queue.add id) ids = queue
    rw [WorkQueue.add_of_shuttingDown hshut, ih]

/-- Making migrations pending makes the queue grow, and they are dirty then. -/
theorem grows_addAll (h : queue.Orderly) (ids : List MigrationId) :
    queue.Grows (addAll queue ids) ∧ ∀ id ∈ ids, id ∈ (addAll queue ids).dirty := by
  induction ids generalizing queue with
  | nil => exact ⟨.refl h, fun _ hid => nomatch hid⟩
  | cons id ids ih =>
    obtain ⟨hadd, hdirty⟩ := queue.grows_add h id
    obtain ⟨hgrows, hids⟩ := ih hadd.orderly
    refine ⟨hadd.trans hgrows, fun other hother => ?_⟩
    rcases List.mem_cons.1 hother with rfl | hother
    · exact hgrows.dirty_subset _ hdirty
    · exact hids other hother

/-- What is delivered at a position: the event there, unless it has been dropped; and nothing where
the log ends. -/
theorem receive_eq (hreads : b.Reads position) :
    p.receive b.receiver =
      if position < (p.logs.get b.kind).size - p.capacity then
        .lagged ((p.logs.get b.kind).size - p.capacity - position)
          (.following b.kind ((p.logs.get b.kind).size - p.capacity))
      else
        match (p.logs.get b.kind)[position]? with
        | some e => .event e (.following b.kind (position + 1))
        | none => .nothingYet := by
  unfold Platform.receive
  rw [hreads.receiver_eq]
  rfl

/-- What a step of a subscription does: it reads an event, or it has missed some, and makes those
pending that the delivery calls for. -/
theorem step?_cases (hreads : b.Reads position)
    (hstep : b.step? Platform.client false g queue p = some (c, rest)) :
    c.kind = b.kind ∧ rest = addAll queue (wakes g b.kind (p.receive b.receiver)) ∧
      ((∃ e, (p.logs.get b.kind)[position]? = some e ∧ c.Reads (position + 1) ∧
          wakes g b.kind (p.receive b.receiver) = (g.ownerOf? e.object.ref).toList) ∨
        ∃ position', position' ≤ (p.logs.get b.kind).size ∧ c.Reads position' ∧
          wakes g b.kind (p.receive b.receiver) = g.ownersOfKind b.kind) := by
  have hreceive : p.receive b.receiver = _ := receive_eq hreads
  have hclient : Platform.client.receive b.receiver p = p.receive b.receiver := rfl
  unfold step? at hstep
  rw [hreads.running, hclient] at hstep
  rw [hreceive] at hstep ⊢
  simp only [Bool.false_eq_true, if_false] at hstep
  split at hstep
  · cases hstep
  · next heq =>
    split at heq
    · cases heq
    · split at heq <;> cases heq
  · next e receiver heq =>
    rw [heq]
    split at heq
    · cases heq
    · split at heq
      · next hevent =>
        cases heq
        cases hstep
        exact ⟨rfl, rfl, .inl ⟨e, hevent, ⟨rfl, rfl⟩, rfl⟩⟩
      · cases heq
  · next missed receiver heq =>
    rw [heq]
    split at heq
    · cases heq
      cases hstep
      exact ⟨rfl, rfl, .inr ⟨_, Nat.sub_le _ _, ⟨rfl, rfl⟩, rfl⟩⟩
    · split at heq <;> cases heq

/-- A running subscription takes no step just while nothing is delivered. -/
theorem step?_eq_none_iff (hreads : b.Reads position) :
    b.step? Platform.client false g queue p = none ↔ p.receive b.receiver = .nothingYet := by
  have hclient : Platform.client.receive b.receiver p = p.receive b.receiver := rfl
  unfold step?
  rw [hreads.running, hclient]
  simp only [Bool.false_eq_true, if_false]
  split
  · next heq => simp [heq]
  · next heq => simp [heq]
  · next heq => simp [heq]
  · next heq => simp [heq]

/-- A subscription that has unread news can take a step. -/
theorem step?_ne_none_of_unread (h : b.Unread r p) (g : Registry)
    (queue : WorkQueue MigrationId) : b.step? Platform.client false g queue p ≠ none := by
  obtain ⟨-, position, hreads, i, e, hi, he, -⟩ := h
  have hlt : position < (p.logs.get b.kind).size :=
    lt_of_le_of_lt hi (Array.getElem?_eq_some_iff.1 he).1
  rw [Ne, step?_eq_none_iff hreads, receive_eq hreads, Array.getElem?_eq_getElem hlt]
  split
  · nofun
  · nofun

/-- News that were unread are still unread after a step, or the step calls for the owner of the
object. -/
theorem Unread.after_step_or_mem (h : b.Unread r p) (howner : g.ownerOf? r = some id)
    (hstep : b.step? Platform.client false g queue p = some (c, rest)) :
    c.Unread r p ∨ id ∈ wakes g b.kind (p.receive b.receiver) := by
  obtain ⟨hkind, position, hreads, i, e, hi, he, hr⟩ := h
  obtain ⟨hc, -, ⟨e', he', hreads', hwakes⟩ | ⟨-, -, -, hwakes⟩⟩ := step?_cases hreads hstep
  · by_cases heq : i = position
    · -- this is the event that tells of the object
      subst heq
      rw [he', Option.some.injEq] at he
      rw [hwakes, he, hr, howner]
      exact .inr (List.mem_singleton_self id)
    · exact .inl ⟨hc ▸ hkind, position + 1, hreads', i, e, by omega, hc ▸ he, hr⟩
  · rw [hwakes]
    exact .inr (Registry.mem_ownersOfKind_iff.2 ⟨r, howner, hkind⟩)

/-- News that were unread are still unread after a step, or the owner of the object is pending. -/
theorem Unread.after_step (h : b.Unread r p) (horderly : queue.Orderly)
    (howner : g.ownerOf? r = some id)
    (hstep : b.step? Platform.client false g queue p = some (c, rest)) :
    c.Unread r p ∨ id ∈ rest.dirty := by
  have hcases := h.after_step_or_mem howner hstep
  obtain ⟨-, position, hreads, -⟩ := h
  obtain ⟨-, rfl, -⟩ := step?_cases hreads hstep
  exact hcases.imp_right ((grows_addAll horderly _).2 id)

theorem Follows.after_step (h : b.Follows kind p)
    (hstep : b.step? Platform.client false g queue p = some (c, rest)) : c.Follows kind p := by
  obtain ⟨rfl, position, hreads, hle⟩ := h
  obtain ⟨hc, -, ⟨e, he, hreads', -⟩ | ⟨position', hle', hreads', -⟩⟩ := step?_cases hreads hstep
  · exact ⟨hc, position + 1, hreads', (Array.getElem?_eq_some_iff.1 he).1⟩
  · exact ⟨hc, position', hreads', hle'⟩

/-- A step makes the queue grow. -/
theorem grows_of_step? (horderly : queue.Orderly)
    (hstep : b.step? Platform.client false g queue p = some (c, rest)) : queue.Grows rest := by
  unfold step? at hstep
  split at hstep
  · cases hstep
  split at hstep
  · next hstopped => cases hstopped
  split at hstep <;> cases hstep
  · exact .refl horderly
  · exact (grows_addAll horderly _).1
  · exact (grows_addAll horderly _).1

end Handover.Subscription
