import Handover.Queue
import Mathlib.Data.List.Nodup

/-!
# The items of a queue

An item may be dirty, pending and being processed. A queue is `Separated` if none of its lists has
an item twice, pending items are dirty and not being processed, and until the queue shuts down its
dirty items are pending or being processed. It is these lists alone that matter (`items`), and there
are five things that can happen to them (`Change`). Each of them keeps a queue separated
(`Separated.after_change`).
-/

namespace Handover.WorkQueue

variable {ι : Type}

/-- No item occurs twice in any list, and pending items are dirty and not being processed. -/
structure Distinct (q : WorkQueue ι) : Prop where
  pending_nodup : q.pending.Nodup
  dirty_nodup : q.dirty.Nodup
  processing_nodup : q.processing.Nodup
  dirty_of_pending : ∀ x ∈ q.pending, x ∈ q.dirty
  not_processing_of_pending : ∀ x ∈ q.pending, x ∉ q.processing

/-- Besides, until the queue shuts down no dirty item is lost. -/
structure Separated (q : WorkQueue ι) : Prop extends q.Distinct where
  pending_or_processing : q.shuttingDown = false → ∀ x ∈ q.dirty, x ∈ q.pending ∨ x ∈ q.processing

variable {q r : WorkQueue ι} {x y : ι}

theorem separated_empty (name : String) (backoff : Backoff) :
    (empty name backoff : WorkQueue ι).Separated where
  pending_nodup := List.nodup_nil
  dirty_nodup := List.nodup_nil
  processing_nodup := List.nodup_nil
  dirty_of_pending := fun _ h => nomatch h
  not_processing_of_pending := fun _ h => nomatch h
  pending_or_processing := fun _ _ h => nomatch h

/-- Until a queue shuts down, what is pending is what is dirty and not being processed. -/
theorem Separated.mem_pending_iff (h : q.Separated) (hrunning : q.shuttingDown = false) (x : ι) :
    x ∈ q.pending ↔ x ∈ q.dirty ∧ x ∉ q.processing := by
  constructor
  · intro hx
    exact ⟨h.dirty_of_pending x hx, h.not_processing_of_pending x hx⟩
  · rintro ⟨hdirty, hprocessing⟩
    exact (h.pending_or_processing hrunning x hdirty).resolve_right hprocessing

/-- To make an item pending leaves a queue separated in which no other dirty item is lost. -/
theorem separated_push (h : q.Distinct) (hdirty : x ∈ q.dirty) (hpending : x ∉ q.pending)
    (hprocessing : x ∉ q.processing)
    (hothers : ∀ y ∈ q.dirty, y ≠ x → y ∈ q.pending ∨ y ∈ q.processing) :
    (q.push x).Separated where
  pending_nodup := by
    show (q.pending ++ [x]).Nodup
    rw [← List.concat_eq_append]
    exact List.Nodup.concat hpending h.pending_nodup
  dirty_nodup := h.dirty_nodup
  processing_nodup := h.processing_nodup
  dirty_of_pending := fun y hy => by
    rcases List.mem_append.1 hy with hy | hy
    · exact h.dirty_of_pending y hy
    · rw [List.mem_singleton.1 hy]
      exact hdirty
  not_processing_of_pending := fun y hy => by
    rcases List.mem_append.1 hy with hy | hy
    · exact h.not_processing_of_pending y hy
    · rw [List.mem_singleton.1 hy]
      exact hprocessing
  pending_or_processing := fun _ y hy => by
    by_cases hyx : y = x
    · exact .inl (List.mem_append_right _ (List.mem_singleton.2 hyx))
    · exact (hothers y hy hyx).imp (List.mem_append_left _) id

/-! ## The lists that matter -/

/-- The lists of items, and whether the queue is shutting down. -/
def items (q : WorkQueue ι) : List ι × List ι × List ι × Bool :=
  (q.pending, q.dirty, q.processing, q.shuttingDown)

/-- Being separated depends on the lists of items alone. -/
theorem Separated.of_items_eq (h : q.Separated) (heq : r.items = q.items) : r.Separated := by
  obtain ⟨hpending, hdirty, hprocessing, hshut⟩ : r.pending = q.pending ∧ r.dirty = q.dirty ∧
      r.processing = q.processing ∧ r.shuttingDown = q.shuttingDown := by
    simpa [items] using heq
  obtain ⟨⟨h₁, h₂, h₃, h₄, h₅⟩, h₆⟩ := h
  constructor
  · constructor <;> simpa only [hpending, hdirty, hprocessing]
  · simpa only [hpending, hdirty, hprocessing, hshut]

variable [DecidableEq ι]

/-- What adding an item does to the lists depends on the lists alone. -/
theorem items_add_of_items_eq (heq : r.items = q.items) (x : ι) :
    (r.add x).items = (q.add x).items := by
  obtain ⟨hpending, hdirty, hprocessing, hshut⟩ : r.pending = q.pending ∧ r.dirty = q.dirty ∧
      r.processing = q.processing ∧ r.shuttingDown = q.shuttingDown := by
    simpa [items] using heq
  unfold add
  rw [hdirty, hshut, hprocessing]
  by_cases hskip : q.shuttingDown = true ∨ x ∈ q.dirty
  · rw [if_pos hskip, if_pos hskip]
    exact heq
  rw [if_neg hskip, if_neg hskip]
  by_cases hx : x ∈ q.processing
  · rw [if_pos hx, if_pos hx]
    simp only [items, hpending]
  · rw [if_neg hx, if_neg hx]
    simp only [items, push, hpending]

/-- Adding an item keeps a queue separated. -/
theorem Separated.add (h : q.Separated) (x : ι) : (q.add x).Separated := by
  unfold WorkQueue.add
  by_cases hskip : q.shuttingDown = true ∨ x ∈ q.dirty
  · rw [if_pos hskip]
    exact h
  rw [if_neg hskip]
  obtain ⟨hrunning, hdirty⟩ := not_or.1 hskip
  have hrunning : q.shuttingDown = false := by simpa using hrunning
  have hmem : x ∈ q.dirty ++ [x] := List.mem_append_right _ (List.mem_singleton_self x)
  have hdistinct : { q with dirty := q.dirty ++ [x] }.Distinct :=
    { h.toDistinct with
      dirty_nodup := by
        show (q.dirty ++ [x]).Nodup
        rw [← List.concat_eq_append]
        exact List.Nodup.concat hdirty h.dirty_nodup
      dirty_of_pending := fun y hy => List.mem_append_left _ (h.dirty_of_pending y hy) }
  have hothers : ∀ y ∈ q.dirty ++ [x], y ≠ x → y ∈ q.pending ∨ y ∈ q.processing := by
    intro y hy hyx
    rcases List.mem_append.1 hy with hy | hy
    · exact h.pending_or_processing hrunning y hy
    · exact absurd (List.mem_singleton.1 hy) hyx
  by_cases hprocessing : x ∈ q.processing
  · -- the item becomes pending when it is no longer processed
    rw [if_pos hprocessing]
    refine ⟨hdistinct, fun _ y hy => ?_⟩
    by_cases hyx : y = x
    · exact .inr (hyx ▸ hprocessing)
    · exact hothers y hy hyx
  · rw [if_neg hprocessing]
    exact separated_push hdistinct hmem (fun hx => hdirty (h.dirty_of_pending x hx)) hprocessing
      hothers

/-- The end of processing an item keeps a queue separated. -/
theorem Separated.done (h : q.Separated) (hx : x ∈ q.processing) : (q.done x).Separated := by
  have hpending : x ∉ q.pending := fun hpending => h.not_processing_of_pending x hpending hx
  have hdistinct : { q with processing := q.processing.erase x }.Distinct :=
    { h.toDistinct with
      processing_nodup := h.processing_nodup.erase x
      not_processing_of_pending := fun y hy hy' =>
        h.not_processing_of_pending y hy (List.mem_of_mem_erase hy') }
  have hothers : q.shuttingDown = false → ∀ y ∈ q.dirty, y ≠ x →
      y ∈ q.pending ∨ y ∈ q.processing.erase x := fun hrunning y hy hyx =>
    (h.pending_or_processing hrunning y hy).imp id fun hy => (List.mem_erase_of_ne hyx).2 hy
  unfold WorkQueue.done
  dsimp only
  by_cases hpush : x ∈ q.dirty ∧ ¬ q.shuttingDown = true
  · -- it was added while it was being processed
    rw [if_pos hpush]
    have hrunning : q.shuttingDown = false := by simpa using hpush.2
    exact separated_push hdistinct hpush.1 hpending h.processing_nodup.not_mem_erase
      (hothers hrunning)
  · rw [if_neg hpush]
    refine ⟨hdistinct, fun hrunning y hy => hothers hrunning y hy ?_⟩
    rintro rfl
    exact hpush ⟨hy, by simpa using hrunning⟩

/-- The queue after its first pending item has been handed out, if the others are these. -/
def handOut (q : WorkQueue ι) (x : ι) (rest : List ι) : WorkQueue ι :=
  { q with pending := rest, dirty := q.dirty.erase x, processing := q.processing ++ [x] }

/-- Handing out the first pending item keeps a queue separated. -/
theorem Separated.handOut (h : q.Separated) {rest : List ι} (hpending : q.pending = x :: rest) :
    (q.handOut x rest).Separated := by
  have hprocessing : x ∉ q.processing :=
    h.not_processing_of_pending x (hpending ▸ List.mem_cons_self)
  obtain ⟨hx, hrest⟩ : x ∉ rest ∧ rest.Nodup := List.nodup_cons.1 (hpending ▸ h.pending_nodup)
  have hmem : ∀ y ∈ rest, y ∈ q.pending := fun y hy => hpending ▸ List.mem_cons_of_mem _ hy
  have hne : ∀ y ∈ rest, y ≠ x := fun y hy hyx => hx (hyx ▸ hy)
  refine ⟨⟨hrest, h.dirty_nodup.erase x, ?_, fun y hy => ?_, fun y hy hy' => ?_⟩,
    fun hrunning y hy => ?_⟩
  · show (q.processing ++ [x]).Nodup
    rw [← List.concat_eq_append]
    exact List.Nodup.concat hprocessing h.processing_nodup
  · exact (List.mem_erase_of_ne (hne y hy)).2 (h.dirty_of_pending y (hmem y hy))
  · rcases List.mem_append.1 hy' with hy' | hy'
    · exact h.not_processing_of_pending y (hmem y hy) hy'
    · exact hne y hy (List.mem_singleton.1 hy')
  · have hyx : y ≠ x := fun hyx => h.dirty_nodup.not_mem_erase (hyx ▸ hy)
    rcases h.pending_or_processing hrunning y (List.mem_of_mem_erase hy) with hy | hy
    · rw [hpending] at hy
      exact .inl ((List.mem_cons.1 hy).resolve_left hyx)
    · exact .inr (List.mem_append_left _ hy)

/-! ## Changes -/

/-- What can happen to the lists of a queue, with the item that is handed out by it and the item
whose processing it ends. -/
inductive Change (q r : WorkQueue ι) : Option ι → Option ι → Prop
  | stay (h : r.items = q.items) : Change q r none none
  | add (x : ι) (h : r.items = (q.add x).items) : Change q r none none
  | done (x : ι) (hx : x ∈ q.processing) (h : r.items = (q.done x).items) : Change q r none (some x)
  | handOut (x : ι) (rest : List ι) (hpending : q.pending = x :: rest)
      (h : r.items = (q.handOut x rest).items) : Change q r (some x) none
  | shutdown (h : r.items = q.shutdown.items) : Change q r none none

variable {handed released : Option ι}

/-- Whatever happens keeps a queue separated. -/
theorem Separated.after_change (h : q.Separated) (hchange : q.Change r handed released) :
    r.Separated := by
  cases hchange with
  | stay heq => exact h.of_items_eq heq
  | add x heq => exact (h.add x).of_items_eq heq
  | done x hx heq => exact (h.done hx).of_items_eq heq
  | handOut x rest hpending heq => exact (h.handOut hpending).of_items_eq heq
  | shutdown heq =>
    have hshutdown : q.shutdown.Separated :=
      ⟨{ h.toDistinct with }, fun hrunning => nomatch hrunning⟩
    exact hshutdown.of_items_eq heq

/-! ### What they do to each list -/

@[simp]
theorem processing_add (q : WorkQueue ι) (x : ι) : (q.add x).processing = q.processing := by
  unfold add
  split
  · rfl
  · dsimp only
    split <;> rfl

@[simp]
theorem processing_done (q : WorkQueue ι) (x : ι) :
    (q.done x).processing = q.processing.erase x := by
  unfold done
  dsimp only
  split <;> rfl

@[simp]
theorem shuttingDown_add (q : WorkQueue ι) (x : ι) :
    (q.add x).shuttingDown = q.shuttingDown := by
  unfold add
  split
  · rfl
  · dsimp only
    split <;> rfl

@[simp]
theorem shuttingDown_done (q : WorkQueue ι) (x : ι) :
    (q.done x).shuttingDown = q.shuttingDown := by
  unfold done
  dsimp only
  split <;> rfl

/-- Adding an item makes it pending or leaves what is pending. -/
theorem pending_add (h : q.Separated) (x : ι) :
    (q.add x).pending = q.pending ∨ x ∉ q.pending ∧ (q.add x).pending = q.pending ++ [x] := by
  unfold add
  by_cases hskip : q.shuttingDown = true ∨ x ∈ q.dirty
  · rw [if_pos hskip]
    exact .inl rfl
  rw [if_neg hskip]
  have hpending : x ∉ q.pending := fun hx => hskip (.inr (h.dirty_of_pending x hx))
  by_cases hprocessing : x ∈ q.processing
  · rw [if_pos hprocessing]
    exact .inl rfl
  · rw [if_neg hprocessing]
    exact .inr ⟨hpending, rfl⟩

/-- The end of processing an item makes it pending or leaves what is pending. -/
theorem pending_done (h : q.Separated) (hx : x ∈ q.processing) :
    (q.done x).pending = q.pending ∨ x ∉ q.pending ∧ (q.done x).pending = q.pending ++ [x] := by
  have hpending : x ∉ q.pending := fun hpending => h.not_processing_of_pending x hpending hx
  unfold done
  dsimp only
  by_cases hpush : x ∈ q.dirty ∧ ¬ q.shuttingDown = true
  · rw [if_pos hpush]
    exact .inr ⟨hpending, rfl⟩
  · rw [if_neg hpush]
    exact .inl rfl

/-- The items that are pending in the second queue and not in the first one, in their order. -/
def arrived (q r : WorkQueue ι) : List ι :=
  r.pending.filter (· ∉ q.pending)

/-- Items become pending at the end and are handed out from the front. -/
theorem Separated.pending_append_arrived (h : q.Separated) (hchange : q.Change r handed released) :
    q.pending ++ q.arrived r = handed.toList ++ r.pending := by
  have hstays : r.pending = q.pending → q.pending ++ q.arrived r = r.pending := by
    intro heq
    have hnone : q.arrived r = [] := List.filter_eq_nil_iff.2 fun y hy => by simp [← heq, hy]
    rw [hnone, List.append_nil, heq]
  have hgrows : ∀ x ∉ q.pending, r.pending = q.pending ++ [x] →
      q.pending ++ q.arrived r = r.pending := by
    intro x hx heq
    have hold : q.pending.filter (· ∉ q.pending) = [] :=
      List.filter_eq_nil_iff.2 fun y hy => by simp [hy]
    have hone : q.arrived r = [x] := by
      unfold arrived
      rw [heq, List.filter_append, hold, List.nil_append]
      exact List.filter_cons_of_pos (by simpa using hx)
    rw [hone, heq]
  have hpending : ∀ {s : WorkQueue ι}, r.items = s.items → r.pending = s.pending :=
    fun heq => congrArg Prod.fst heq
  cases hchange with
  | stay heq => exact hstays (hpending heq)
  | add x heq =>
    rcases pending_add h x with hsame | ⟨hx, hpush⟩
    · exact hstays ((hpending heq).trans hsame)
    · exact hgrows x hx ((hpending heq).trans hpush)
  | done x hx heq =>
    rcases pending_done h hx with hsame | ⟨hx, hpush⟩
    · exact hstays ((hpending heq).trans hsame)
    · exact hgrows x hx ((hpending heq).trans hpush)
  | handOut x rest hcons heq =>
    have hrest : r.pending = rest := hpending heq
    have hnone : q.arrived r = [] := by
      refine List.filter_eq_nil_iff.2 fun y hy => ?_
      have hmem : y ∈ q.pending := hcons ▸ List.mem_cons_of_mem _ (hrest ▸ hy)
      simp [hmem]
    rw [hnone, List.append_nil, hcons, hrest]
    rfl
  | shutdown heq => exact hstays (hpending heq : r.pending = q.shutdown.pending)

/-- An item is processed until that ends. -/
theorem Change.mem_processing (hchange : q.Change r handed released) (hx : x ∈ q.processing)
    (hreleased : released ≠ some x) : x ∈ r.processing := by
  have hprocessing : ∀ {s : WorkQueue ι}, r.items = s.items → r.processing = s.processing :=
    fun heq => congrArg (·.2.2.1) heq
  cases hchange with
  | stay heq => exact hprocessing heq ▸ hx
  | add y heq =>
    rw [hprocessing heq, processing_add]
    exact hx
  | done y hy heq =>
    rw [hprocessing heq, processing_done]
    exact (List.mem_erase_of_ne fun hxy => hreleased (congrArg some hxy.symm)).2 hx
  | handOut y rest hpending heq =>
    rw [hprocessing heq]
    exact List.mem_append_left _ hx
  | shutdown heq => exact hprocessing heq ▸ hx

/-- An item that is handed out was not being processed before, and is being processed then. -/
theorem Separated.of_handed (h : q.Separated) (hchange : q.Change r (some x) released) :
    x ∉ q.processing ∧ x ∈ r.processing := by
  cases hchange with
  | handOut _ rest hpending heq =>
    have hprocessing : r.processing = q.processing ++ [x] := congrArg (·.2.2.1) heq
    refine ⟨h.not_processing_of_pending x (hpending ▸ List.mem_cons_self), ?_⟩
    rw [hprocessing]
    exact List.mem_append_right _ (List.mem_singleton_self x)

end Handover.WorkQueue
