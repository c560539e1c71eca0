import Handover.Engine
import Handover.Proofs.Queue

/-!
# Workers and their queue

Workers are `Staffed` at a queue if there are some, none is gone, those that are idle are just the
getters that wait at the queue, and those that hold an item hold just what is being processed, each
item once. Whatever the queue and the workers do to each other keeps it so.
-/

namespace Handover

/-- What the worker of this number is at. -/
def Worker.stateOf? (workers : List Worker) (n : Nat) : Option WorkerState :=
  workers[n]?.map (·.state)

/-- Set what a worker is at. -/
def Worker.set (workers : List Worker) (n : Nat) (state : WorkerState) : List Worker :=
  workers.modify n ({ · with state })

theorem Worker.stateOf?_set (workers : List Worker) (n k : Nat) (state : WorkerState) :
    stateOf? (set workers n state) k =
      if k = n then (stateOf? workers k).map fun _ => state else stateOf? workers k := by
  unfold stateOf? set
  rw [List.getElem?_modify]
  cases workers[k]? with
  | none => simp
  | some w =>
    by_cases hk : k = n
    · simp [hk]
    · simp [hk, Ne.symm hk]

theorem Worker.stateOf?_set_self {workers : List Worker} {n : Nat} {s : WorkerState}
    (h : stateOf? workers n = some s) (state : WorkerState) :
    stateOf? (set workers n state) n = some state := by
  rw [stateOf?_set, if_pos rfl, h, Option.map_some]

theorem Worker.stateOf?_set_of_ne (workers : List Worker) {n k : Nat} (hk : k ≠ n)
    (state : WorkerState) : stateOf? (set workers n state) k = stateOf? workers k := by
  rw [stateOf?_set, if_neg hk]

/-- After setting a worker it is at what was set, and all others are at what they were. -/
theorem Worker.of_stateOf?_set {workers : List Worker} {n k : Nat} {state s : WorkerState}
    (h : stateOf? (set workers n state) k = some s) :
    k = n ∧ s = state ∨ k ≠ n ∧ stateOf? workers k = some s := by
  rw [stateOf?_set] at h
  split at h
  · next hk =>
    obtain ⟨-, -, rfl⟩ := Option.map_eq_some_iff.1 h
    exact .inl ⟨hk, rfl⟩
  · next hk => exact .inr ⟨hk, h⟩

theorem Worker.set_ne_nil {workers : List Worker} (h : workers ≠ []) (n : Nat)
    (state : WorkerState) : set workers n state ≠ [] := by
  intro hset
  apply h
  apply List.eq_nil_of_length_eq_zero
  rw [← List.length_modify ({ · with state }) workers n]
  exact congrArg List.length hset

open Worker (stateOf?)

/-- Idle workers wait for items, other workers hold what is being processed. -/
structure Staffed (workers : List Worker) (q : WorkQueue MigrationId) : Prop where
  nonempty : workers ≠ []
  present : ∀ n, stateOf? workers n ≠ some .gone
  waiting_nodup : q.waiting.Nodup
  mem_waiting_iff : ∀ n, n ∈ q.waiting ↔ stateOf? workers n = some .idle
  mem_processing_iff : ∀ id, id ∈ q.processing ↔ ∃ n, stateOf? workers n = some (.holding id)
  holder_unique : ∀ n k id, stateOf? workers n = some (.holding id) →
    stateOf? workers k = some (.holding id) → n = k

variable {workers : List Worker} {q r : WorkQueue MigrationId} {n : Nat} {id : MigrationId}

/-- Additions to the queue leave the workers alone. -/
theorem Staffed.of_grows (h : Staffed workers q) (hgrows : q.Grows r) : Staffed workers r where
  nonempty := h.nonempty
  present := h.present
  waiting_nodup := hgrows.waiting_perm.nodup_iff.2 h.waiting_nodup
  mem_waiting_iff := fun n => hgrows.waiting_perm.mem_iff.trans (h.mem_waiting_iff n)
  mem_processing_iff := fun id => by
    rw [hgrows.processing_eq]
    exact h.mem_processing_iff id
  holder_unique := h.holder_unique

theorem Staffed.ne_of_holding (h : Staffed workers q) {k : Nat} (hidle : n ∈ q.waiting)
    (hk : stateOf? workers k = some (.holding id)) : k ≠ n := by
  rintro rfl
  have hstate := (h.mem_waiting_iff k).1 hidle
  rw [hk] at hstate
  cases hstate

/-- An idle worker gets an item that nobody holds. -/
theorem Staffed.hold (h : Staffed workers q) (hidle : n ∈ q.waiting) (hhands : q.HandsOut n id r) :
    Staffed (Worker.set workers n (.holding id)) r := by
  have hnodup : (n :: r.waiting).Nodup := hhands.waiting_perm.nodup_iff.1 h.waiting_nodup
  have hn : n ∉ r.waiting := (List.nodup_cons.1 hnodup).1
  have hself : stateOf? (Worker.set workers n (.holding id)) n = some (.holding id) :=
    Worker.stateOf?_set_self ((h.mem_waiting_iff n).1 hidle) _
  have hother : ∀ k, k ≠ n → stateOf? (Worker.set workers n (.holding id)) k =
      stateOf? workers k := fun k hk => Worker.stateOf?_set_of_ne workers hk _
  have hholders : ∀ k x, stateOf? (Worker.set workers n (.holding id)) k = some (.holding x) →
      k = n ∧ x = id ∨ k ≠ n ∧ stateOf? workers k = some (.holding x) := fun k x hk =>
    (Worker.of_stateOf?_set hk).imp_left fun ⟨hkn, hx⟩ => ⟨hkn, WorkerState.holding.inj hx⟩
  have hunheld : ∀ k, stateOf? workers k ≠ some (.holding id) :=
    fun k hk => hhands.not_processing ((h.mem_processing_iff id).2 ⟨k, hk⟩)
  refine
    { nonempty := Worker.set_ne_nil h.nonempty n _
      present := fun k => ?_
      waiting_nodup := (List.nodup_cons.1 hnodup).2
      mem_waiting_iff := fun k => ?_
      mem_processing_iff := fun x => ?_
      holder_unique := fun k l x hk hl => ?_ }
  · by_cases hkn : k = n
    · rw [hkn, hself]
      nofun
    · rw [hother k hkn]
      exact h.present k
  · by_cases hkn : k = n
    · rw [hkn, hself]
      exact ⟨fun hmem => absurd hmem hn, nofun⟩
    · rw [hother k hkn, ← h.mem_waiting_iff, hhands.waiting_perm.mem_iff, List.mem_cons,
        or_iff_right hkn]
  · rw [hhands.processing_eq, List.mem_append, List.mem_singleton, h.mem_processing_iff]
    constructor
    · rintro (⟨k, hk⟩ | rfl)
      · exact ⟨k, (hother k (h.ne_of_holding hidle hk)).trans hk⟩
      · exact ⟨n, hself⟩
    · rintro ⟨k, hk⟩
      rcases hholders k x hk with ⟨-, hx⟩ | ⟨-, hk'⟩
      · exact .inr hx
      · exact .inl ⟨k, hk'⟩
  · -- nobody held the new item before
    rcases hholders k x hk with ⟨rfl, rfl⟩ | ⟨-, hk'⟩
    · rcases hholders l x hl with ⟨rfl, -⟩ | ⟨-, hl⟩
      · rfl
      · exact absurd hl (hunheld l)
    · rcases hholders l x hl with ⟨rfl, rfl⟩ | ⟨-, hl'⟩
      · exact absurd hk' (hunheld k)
      · exact h.holder_unique k l x hk' hl'

/-- A worker that is done with an item is idle and waits. -/
theorem Staffed.release (h : Staffed workers q) (hholds : stateOf? workers n = some (.holding id))
    (hnodup : q.processing.Nodup) (hprocessing : r.processing = q.processing.erase id)
    (hwaiting : r.waiting.Perm (n :: q.waiting)) : Staffed (Worker.set workers n .idle) r := by
  have hn : n ∉ q.waiting := fun hn => by
    rw [h.mem_waiting_iff, hholds] at hn
    cases hn
  have hself : stateOf? (Worker.set workers n .idle) n = some .idle :=
    Worker.stateOf?_set_self hholds _
  have hother : ∀ k, k ≠ n → stateOf? (Worker.set workers n .idle) k = stateOf? workers k :=
    fun k hk => Worker.stateOf?_set_of_ne workers hk _
  have hholders : ∀ k x, stateOf? (Worker.set workers n .idle) k = some (.holding x) →
      k ≠ n ∧ stateOf? workers k = some (.holding x) := fun k x hk =>
    (Worker.of_stateOf?_set hk).resolve_left fun ⟨_, hx⟩ => nomatch hx
  refine
    { nonempty := Worker.set_ne_nil h.nonempty n _
      present := fun k => ?_
      waiting_nodup := hwaiting.nodup_iff.2 (List.nodup_cons.2 ⟨hn, h.waiting_nodup⟩)
      mem_waiting_iff := fun k => ?_
      mem_processing_iff := fun x => ?_
      holder_unique := fun k l x hk hl =>
        h.holder_unique k l x (hholders k x hk).2 (hholders l x hl).2 }
  · by_cases hkn : k = n
    · rw [hkn, hself]
      nofun
    · rw [hother k hkn]
      exact h.present k
  · rw [hwaiting.mem_iff, List.mem_cons]
    by_cases hkn : k = n
    · rw [hkn, hself]
      exact ⟨fun _ => rfl, fun _ => .inl rfl⟩
    · rw [hother k hkn, or_iff_right hkn, h.mem_waiting_iff]
  · rw [hprocessing, hnodup.mem_erase_iff, h.mem_processing_iff]
    constructor
    · rintro ⟨hx, k, hk⟩
      refine ⟨k, (hother k ?_).trans hk⟩
      rintro rfl
      rw [hholds] at hk
      cases hk
      exact hx rfl
    · -- the item that is done had no other holder
      rintro ⟨k, hk⟩
      obtain ⟨hkn, hk⟩ := hholders k x hk
      refine ⟨?_, k, hk⟩
      rintro rfl
      exact hkn (h.holder_unique k n x hk hholds)

/-! ## Hiring -/

theorem enterWorkers_eq (first count : Nat) (q : WorkQueue MigrationId) :
    Engine.enterWorkers first count q =
      { q with wakeups := { q.wakeups with
          ready := q.wakeups.ready ++ List.range' first count } } := by
  induction count generalizing first q with
  | zero => simp [Engine.enterWorkers]
  | succ count ih =>
    rw [Engine.enterWorkers, ih, List.range'_succ]
    simp [Wakeups.enter]

theorem orderly_enterWorkers (first count : Nat) {q : WorkQueue MigrationId} (h : q.Orderly) :
    (Engine.enterWorkers first count q).Orderly := by
  induction count generalizing first q with
  | zero => exact h
  | succ count ih => exact ih (first + 1) (WorkQueue.orderly_enter h first)

/-- The workers of a queue without items wait for some. -/
theorem staffed_replicate (name : String) (backoff : Backoff) {count : Nat} (hcount : count ≠ 0) :
    Staffed (List.replicate count ⟨.idle, true⟩)
      (Engine.enterWorkers 0 count (.empty name backoff)) := by
  have hwaiting : (Engine.enterWorkers 0 count (.empty name backoff)).waiting =
      List.range' 0 count := by
    rw [enterWorkers_eq]
    simp [WorkQueue.waiting, WorkQueue.empty, Wakeups.none]
  have hprocessing : (Engine.enterWorkers 0 count (.empty name backoff)).processing = [] := by
    rw [enterWorkers_eq]
    rfl
  have hstate : ∀ n, stateOf? (List.replicate count ⟨.idle, true⟩) n =
      if n < count then some .idle else none := by
    intro n
    unfold stateOf?
    rw [List.getElem?_replicate]
    split <;> rfl
  refine ⟨by simpa using hcount, fun n => ?_, ?_, fun n => ?_, fun id => ?_, fun n k id hn => ?_⟩
  · rw [hstate]
    split <;> nofun
  · rw [hwaiting]
    exact List.nodup_range'
  · rw [hwaiting, hstate, List.mem_range'_1]
    split <;> simp [*]
  · rw [hprocessing]
    refine ⟨fun h => (nomatch h), fun ⟨n, hn⟩ => ?_⟩
    rw [hstate] at hn
    split at hn <;> cases hn
  · rw [hstate] at hn
    split at hn <;> cases hn

end Handover
