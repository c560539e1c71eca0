import Handover.Proofs.Platform.Incarnation
import Handover.Proofs.Platform.Reading

/-!
# Declared replica counts

An operation `Spares` an object if it is no re-insertion, no deletion and no edit of its declared
replica count. Status reports, injected failures and whatever concerns other objects spare it.
Operations that spare an object keep its declared count (`Platform.declared?_apply`).
-/

namespace Handover

namespace Platform

/-- The number of replicas that the object under a reference declares. -/
def declared? (p : Platform) (r : ResourceRef) : Option Int :=
  (p.object? r).map (·.declared)

theorem declared?_eq_some_iff {p : Platform} {r : ResourceRef} {n : Int} :
    p.declared? r = some n ↔ ∃ w, p.object? r = some w ∧ w.declared = n :=
  Option.map_eq_some_iff

theorem declared?_of_object? {p : Platform} {r : ResourceRef} {w : Workload}
    (h : p.object? r = some w) : p.declared? r = some w.declared :=
  declared?_eq_some_iff.2 ⟨w, h, rfl⟩

/-- Only the declared count of the object that is stored can change. -/
theorem declared?_store (p : Platform) (change : Change) (w : Workload) (r : ResourceRef) :
    (p.store change w).declared? r = if r = w.ref then some w.declared else p.declared? r := by
  unfold declared?
  rw [object?_store]
  split <;> rfl

/-- An operation that does not re-insert or delete an object and does not edit its declared count.
-/
def Operation.Spares (p : Platform) (r : ResourceRef) : Operation → Prop
  | put w => w.ref ≠ r
  | update w => w.ref = r → p.declared? r = some w.declared
  | delete s _ => s ≠ r
  | setStatus .. | settle _ | settleKind _ | settleAll | failNextUpdates .. | create _ => True

/-! ## Status reports -/

/-- A report leaves every declared count. -/
theorem declared?_of_reports {p : Platform} (hp : p.Sound) (op : Operation) (hop : op.Reports)
    (r : ResourceRef) : (op.apply p).declared? r = p.declared? r :=
  map_object?_of_reports (fun _ _ _ => rfl) hp op hop r

/-! ## Changes of objects -/

/-- What leaves an object leaves its declared count. -/
theorem declared?_congr {p q : Platform} {r : ResourceRef} (h : q.object? r = p.object? r) :
    q.declared? r = p.declared? r :=
  congrArg (Option.map Workload.declared) h

theorem declared?_create {p : Platform} {r : ResourceRef} {n : Int} (h : p.declared? r = some n)
    (w : Workload) : (p.create w).2.declared? r = some n := by
  obtain ⟨v, hv, hn⟩ := declared?_eq_some_iff.1 h
  exact declared?_eq_some_iff.2 ⟨v, object?_create hv w, hn⟩

theorem declared?_update {p : Platform} {r : ResourceRef} {w : Workload}
    (h : w.ref = r → p.declared? r = some w.declared) :
    (p.update w).2.declared? r = p.declared? r := by
  rcases hupdate : p.update w with ⟨e | written, p'⟩
  · unfold declared? object?
    rw [objects_of_update_eq_error hupdate]
  · obtain ⟨current, -, -, rfl, rfl⟩ := of_update_eq_ok hupdate
    show (p.store .modified (p.revision current w)).declared? r = _
    have href : (p.revision current w).ref = w.ref := rfl
    rw [declared?_store, href]
    split
    · next hr => exact (h hr.symm).symm
    · rfl

/-- Whatever spares an object keeps its declared count. -/
theorem declared?_apply {p : Platform} (hp : p.Sound) {r : ResourceRef} {n : Int}
    (h : p.declared? r = some n) {op : Operation} (hop : op.Spares p r) :
    (op.apply p).declared? r = some n := by
  cases op with
  | put w => exact (declared?_congr (object?_put_of_ne hop)).trans h
  | create w => exact declared?_create h w
  | update w => exact (declared?_update hop).trans h
  | delete s propagation => exact (declared?_congr (object?_delete_of_ne hop propagation)).trans h
  | setStatus s status => exact (declared?_of_reports hp (.setStatus s status) trivial r).trans h
  | settle s => exact (declared?_of_reports hp (.settle s) trivial r).trans h
  | settleKind kind => exact (declared?_of_reports hp (.settleKind kind) trivial r).trans h
  | settleAll => exact (declared?_of_reports hp .settleAll trivial r).trans h
  | failNextUpdates e count => exact h

end Platform

/-! ## Passes -/

namespace Migration

/-- Whatever was read: over a pass the declared count of a side's object moves as the side's counter
does. -/
theorem declared?_pass_held {m : Migration} {p : Platform}
    {read : ResourceRef → Except PlatformError Workload}
    (hread : ∀ r w, read r = .ok w → p.Held r w) (hne : m.src ≠ m.dst)
    (hwithin : m.counters.Within m.goal.replicas) (limit now : Nat) (side : Side) :
    let result := m.pass (Platform.clientReading read) limit now p
    let after := (m.conclude now result.1).counters
    (result.2.declared? (m.refOf side) = p.declared? (m.refOf side) ∧
      after.count side = m.counters.count side) ∨
    ∃ k n, p.declared? (m.refOf side) = some k ∧
      result.2.declared? (m.refOf side) = some (k + side.change n) ∧
      after.count side = m.counters.count side + n := by
  intro result after
  rcases pass_held_cases hread limit now m with
    ⟨hobjects, hverdict⟩ | ⟨src, dst, written, n, -, -, -, hintent, -, href, hstored, hpass⟩
  · have hcounters := counters_conclude_of_not_isLanded hverdict m now
    refine .inl ⟨?_, congrArg (Counters.count · side) hcounters⟩
    unfold Platform.declared? Platform.object?
    rw [hobjects]
  · have hafter : after = m.counters.after (written.step n) := by
      show (m.conclude now (m.pass _ limit now p).1).counters = _
      rw [hpass, counters_conclude_landed hwithin hintent]
    have hstore : result.2 = p.store .modified _ := congrArg Prod.snd hpass
    rw [hafter, Counters.count_after_step, hstore, Platform.declared?_store, Workload.ref_stamped,
      Workload.ref_moved, href]
    by_cases hside : side = written
    · subst hside
      rw [if_pos rfl, if_pos rfl]
      exact .inr ⟨_, n, Platform.declared?_eq_some_iff.2 ⟨_, hstored, rfl⟩, rfl, rfl⟩
    · -- the write was to the other object
      rw [if_neg hside, if_neg fun hrefs => hside ((refOf_inj hne).1 hrefs)]
      exact .inl ⟨rfl, rfl⟩

end Migration

end Handover
