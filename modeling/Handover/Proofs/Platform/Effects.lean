import Handover.Proofs.Platform.Evolution

/-!
# The effect of an operation on one object

Most operations are on one object. What such an operation does is decided by that object alone: it
does nothing, it stores the object anew, or it removes it (`Operation.effect`). Where no failure is
awaited an operation is its effect (`Operation.apply_eq_run`).
-/

namespace Handover.Platform

/-- What is done to one object. A stored object is given the next version. -/
inductive Effect where
  | nothing
  | store (change : Change) (w : Workload)
  | remove (r : ResourceRef) (w : Workload) (propagation : Propagation)

namespace Effect

/-- The platform after an effect. -/
def run (p : Platform) : Effect → Platform
  | nothing => p
  | store change w => p.store change (w.stamped w.metadata.generation p.nextVersion)
  | remove r w propagation => p.remove r w propagation

/-- An effect on the object under a reference, in place of what was there. -/
def At (r : ResourceRef) (current : Option Workload) : Effect → Prop
  | nothing => True
  | store change w => w.ref = r ∧ change ≠ .deleted ∧ (change = .added ↔ current = none)
  | remove s w _ => s = r ∧ current = some w

end Effect

namespace Operation

/-- The reference of the object that an operation is on, if it is on one object. -/
def ref? : Operation → Option ResourceRef
  | put w | create w | update w => some w.ref
  | setStatus r _ | settle r | delete r _ => some r
  | settleKind _ | settleAll | failNextUpdates .. => none

/-- What an operation does, given the object that it is on. -/
def effect (current : Option Workload) : Operation → Effect
  | put w =>
    .store (if current.isSome then .modified else .added)
      (w.stamped (max w.metadata.generation 1) w.metadata.resourceVersion)
  | setStatus _ status => current.elim .nothing fun w => .store .modified (w.withStatus status)
  | settle _ => current.elim .nothing fun w =>
      if w.status = w.settledStatus then .nothing
      else .store .modified (w.withStatus w.settledStatus)
  | create w =>
    if w.metadata.name.isEmpty then .nothing
    else if current.isSome then .nothing
    else .store .added ((w.withStatus {}).stamped 1 w.metadata.resourceVersion)
  | update w => current.elim .nothing fun v =>
      if v.metadata.resourceVersion ≠ w.metadata.resourceVersion then .nothing
      else .store .modified ((w.withStatus v.status).stamped
        (if w.spec.agrees v.spec then v.metadata.generation else v.nextGeneration)
        w.metadata.resourceVersion)
  | delete r propagation => current.elim .nothing fun w => .remove r w propagation
  | settleKind _ | settleAll | failNextUpdates .. => .nothing

variable {p : Platform} {op : Operation} {r : ResourceRef}

/-- An operation on one object is its effect, but that an update may meet a failure. -/
theorem apply_eq_run (h : op.ref? = some r) (hp : ∀ w, op = .update w → p.failures = []) :
    op.apply p = (op.effect (p.object? r)).run p := by
  cases op with
  | put w => cases h; rfl
  | setStatus s status =>
    cases h
    simp only [apply, effect, setStatus_eq]
    cases p.object? r <;> rfl
  | settle s =>
    cases h
    simp only [apply, effect, Platform.settle, setStatus_eq]
    cases p.object? r with
    | none => rfl
    | some w =>
      by_cases hsettled : w.status = w.settledStatus
      · simp only [if_pos hsettled, Option.elim_some, Effect.run]
      · simp only [if_neg hsettled, Option.elim_some, Effect.run]
        rfl
  | create w =>
    cases h
    simp only [apply, effect, Platform.create]
    by_cases hname : w.metadata.name.isEmpty
    · rw [if_pos hname, if_pos hname]
      rfl
    rw [if_neg hname, if_neg hname]
    by_cases hthere : p.objects.contains w.ref
    · rw [if_pos hthere, if_pos (show (p.object? w.ref).isSome from hthere)]
      rfl
    · rw [if_neg hthere, if_neg (show ¬ (p.object? w.ref).isSome from hthere)]
      rfl
  | update w =>
    cases h
    simp only [apply, effect, update_eq, hp w rfl]
    cases p.object? w.ref with
    | none => rfl
    | some current =>
      by_cases hversion : current.metadata.resourceVersion = w.metadata.resourceVersion
      · simp only [hversion, ne_eq, not_true, if_false, Option.elim_some, Effect.run]
        rfl
      · simp only [ne_eq, hversion, not_false_eq_true, if_true, Option.elim_some, Effect.run]
  | delete s propagation =>
    cases h
    simp only [apply, effect, Platform.delete]
    cases p.object? r <;> rfl
  | settleKind kind => cases h
  | settleAll => cases h
  | failNextUpdates e count => cases h

/-- An operation on one object has its effect there. -/
theorem effect_at (h : op.ref? = some r) {current : Option Workload}
    (hcurrent : ∀ w, current = some w → w.ref = r) : (op.effect current).At r current := by
  cases op with
  | put w =>
    cases h
    cases current with
    | none => exact ⟨rfl, by simp, by simp⟩
    | some v => exact ⟨rfl, by simp, by simp⟩
  | setStatus s status =>
    cases current with
    | none => trivial
    | some w =>
      cases h
      exact ⟨hcurrent w rfl, by simp, by simp⟩
  | settle s =>
    cases current with
    | none => trivial
    | some w =>
      cases h
      simp only [effect, Option.elim_some]
      split
      · trivial
      · exact ⟨hcurrent w rfl, by simp, by simp⟩
  | create w =>
    cases h
    simp only [effect]
    split
    · trivial
    split
    · trivial
    · next hfree =>
      have hnone : current = none := Option.not_isSome_iff_eq_none.1 hfree
      exact ⟨rfl, by simp, by simp [hnone]⟩
  | update w =>
    cases current with
    | none => trivial
    | some v =>
      cases h
      simp only [effect, Option.elim_some]
      split
      · trivial
      · exact ⟨rfl, by simp, by simp⟩
  | delete s propagation =>
    cases current with
    | none => trivial
    | some w =>
      cases h
      exact ⟨rfl, rfl⟩
  | settleKind kind => cases h
  | settleAll => cases h
  | failNextUpdates e count => cases h

end Operation

end Handover.Platform
