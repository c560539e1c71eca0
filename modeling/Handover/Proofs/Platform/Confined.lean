import Handover.Proofs.Platform.Answers
import Handover.Proofs.Platform.Effects

/-!
# Confined actions

An action on a platform is `Confined` to some references if what it answers and what it does is
decided by the objects there, and what it does, it does to one of them. Where no failure is awaited
an operation on one object is confined to its reference (`Operation.confined`). Two actions that are
confined to different references may change places: they answer the same, and they lead to the same
objects up to versions (`Confined.swap`).
-/

namespace Handover

/-- The object without its version. -/
def Workload.unversioned (w : Workload) : Workload :=
  w.stamped w.metadata.generation 0

namespace Platform

/-- The answer without the version of its object. -/
def Answer.unversioned : Answer → Answer
  | object w => object w.unversioned
  | changed any => changed any
  | settled count => settled count
  | done => done

/-- Two platforms have the same objects up to versions. -/
def Alike (p q : Platform) : Prop :=
  ∀ r, (p.object? r).map Workload.unversioned = (q.object? r).map Workload.unversioned

variable {p q : Platform} {r s : ResourceRef} {current : Option Workload} {e : Effect}

/-! ## Effects on different objects -/

namespace Effect

/-- What an effect makes of the object under a reference, versions apart. -/
def onto (e : Effect) (r : ResourceRef) (current : Option Workload) : Option Workload :=
  match e with
  | nothing => current
  | store _ w => if r = w.ref then some w.unversioned else current
  | remove s _ _ => if r = s then none else current

theorem onto_of_ne (h : e.At r current) (hne : s ≠ r) (other : Option Workload) :
    e.onto s other = other := by
  cases e with
  | nothing => rfl
  | store change w =>
    obtain ⟨rfl, -⟩ := h
    exact if_neg hne
  | remove t w propagation =>
    obtain ⟨rfl, -⟩ := h
    exact if_neg hne

theorem map_object?_run (e : Effect) (p : Platform) (s : ResourceRef) :
    ((e.run p).object? s).map Workload.unversioned =
      e.onto s ((p.object? s).map Workload.unversioned) := by
  cases e with
  | nothing => rfl
  | store change w =>
    rw [run, object?_store, Workload.ref_stamped]
    by_cases hs : s = w.ref
    · rw [if_pos hs, onto, if_pos hs]
      rfl
    · rw [if_neg hs, onto, if_neg hs]
  | remove t w propagation =>
    rw [run, object?_remove]
    by_cases hs : s = t
    · rw [if_pos hs, onto, if_pos hs]
      rfl
    · rw [if_neg hs, onto, if_neg hs]

/-- An effect leaves the other objects as they are, with their versions. -/
theorem object?_run_of_ne (h : e.At r current) (hne : s ≠ r) (p : Platform) :
    (e.run p).object? s = p.object? s := by
  cases e with
  | nothing => rfl
  | store change w =>
    obtain ⟨rfl, -⟩ := h
    unfold run
    rw [object?_store, Workload.ref_stamped, if_neg hne]
  | remove t w propagation =>
    obtain ⟨rfl, -⟩ := h
    unfold run
    rw [object?_remove, if_neg hne]

theorem evolves_run (h : e.At r (p.object? r)) : p.Evolves (e.run p) := by
  cases e with
  | nothing => exact .refl p
  | store change w => exact (Edit.store _ _ rfl).evolves
  | remove s w propagation =>
    obtain ⟨rfl, hw⟩ := h
    exact (Edit.remove s w propagation hw).evolves

theorem failures_run (e : Effect) (p : Platform) : (e.run p).failures = p.failures := by
  cases e <;> rfl

/-- Effects on different objects may change places. -/
theorem alike_run_run {e' : Effect} {current' : Option Workload} (h : e.At r current)
    (h' : e'.At s current') (hne : r ≠ s) (p : Platform) :
    (e'.run (e.run p)).Alike (e.run (e'.run p)) := by
  intro t
  rw [map_object?_run, map_object?_run, map_object?_run, map_object?_run]
  -- one of the two leaves this object alone
  by_cases ht : t = r
  · have hts : t ≠ s := fun hts => hne (ht.symm.trans hts)
    rw [onto_of_ne h' hts, onto_of_ne h' hts]
  · rw [onto_of_ne h ht, onto_of_ne h ht]

end Effect

/-! ## Actions on different objects -/

variable {α β : Type} {refs others : List ResourceRef} {action : Platform → α × Platform}
  {other : Platform → β × Platform}

/-- What an action answers and does is decided by the objects under these references, and it does
that to one of them. -/
def Confined (refs : List ResourceRef) (action : Platform → α × Platform) : Prop :=
  ∀ p q : Platform, p.Sound → q.Sound → p.failures = [] → q.failures = [] →
    (∀ r ∈ refs, q.object? r = p.object? r) →
    ∃ (answer : α) (e : Effect), (∃ r ∈ refs, e.At r (p.object? r)) ∧
      action p = (answer, e.run p) ∧ action q = (answer, e.run q)

/-- Actions that are confined to different references may change places. -/
theorem Confined.swap (h : Confined refs action) (h' : Confined others other)
    (hne : ∀ r ∈ refs, ∀ s ∈ others, r ≠ s) (hp : p.Sound) (hfailures : p.failures = []) :
    (action (other p).2).1 = (action p).1 ∧ (other (action p).2).1 = (other p).1 ∧
      (other (action p).2).2.Alike (action (other p).2).2 := by
  obtain ⟨answer, e, ⟨r, hr, hat⟩, hact, -⟩ := h p p hp hp hfailures hfailures fun _ _ => rfl
  obtain ⟨answer', e', ⟨s, hs, hat'⟩, hact', -⟩ := h' p p hp hp hfailures hfailures fun _ _ => rfl
  -- after the other one has been there, each finds its objects as they were
  have hsound := (Effect.evolves_run hat).sound hp
  have hsound' := (Effect.evolves_run hat').sound hp
  obtain ⟨first, d, ⟨t, ht, hat_d⟩, hd, hd_later⟩ := h p (e'.run p) hp hsound' hfailures
    ((e'.failures_run p).trans hfailures)
    fun t ht => Effect.object?_run_of_ne hat' (hne t ht s hs) p
  obtain ⟨second, d', ⟨u, hu, hat_d'⟩, hd', hd_later'⟩ := h' p (e.run p) hp hsound hfailures
    ((e.failures_run p).trans hfailures)
    fun t ht => Effect.object?_run_of_ne hat (hne r hr t ht).symm p
  have hsame : d.run p = e.run p := congrArg Prod.snd (hd.symm.trans hact)
  have hsame' : d'.run p = e'.run p := congrArg Prod.snd (hd'.symm.trans hact')
  refine ⟨?_, ?_, ?_⟩
  · rw [hact', hd_later, hd]
  · rw [hact, hd_later', hd']
  · have hswap := Effect.alike_run_run hat_d hat_d' (hne t ht u hu) p
    rw [hsame, hsame'] at hswap
    rw [hact, hact', hd_later, hd_later']
    exact hswap

/-! ## Operations -/

/-- What an operation on one object answers is decided by that object, the version of what it has
stored apart. -/
theorem Operation.answer_congr {op : Operation} (h : op.ref? = some r) (hp : p.failures = [])
    (hq : q.failures = []) (hsame : q.object? r = p.object? r) :
    (op.answer q).map Answer.unversioned = (op.answer p).map Answer.unversioned := by
  cases op with
  | put w => rfl
  | setStatus s status =>
    cases h
    simp only [answer, setStatus_eq, hsame]
    cases p.object? r <;> rfl
  | settle s =>
    cases h
    simp only [answer, Platform.settle, hsame]
    cases p.object? r with
    | none => rfl
    | some w =>
      dsimp only
      split <;> rfl
  | create w =>
    cases h
    have hthere : q.objects.contains w.ref = p.objects.contains w.ref :=
      congrArg Option.isSome hsame
    simp only [answer, Platform.create, hthere]
    split
    · rfl
    split
    · rfl
    · rfl
  | update w =>
    cases h
    simp only [answer, update_eq, hp, hq, hsame]
    cases p.object? w.ref with
    | none => rfl
    | some current =>
      dsimp only
      split <;> rfl
  | delete s propagation =>
    cases h
    simp only [answer, Platform.delete, hsame]
    cases p.object? r <;> rfl
  | settleKind kind => cases h
  | settleAll => cases h
  | failNextUpdates e count => cases h

/-- An operation as an action, with its answer up to the version. -/
def Operation.act (op : Operation) (p : Platform) : Except PlatformError Answer × Platform :=
  ((op.answer p).map Answer.unversioned, op.apply p)

/-- An operation on one object is confined to its reference. -/
theorem Operation.confined {op : Operation} (h : op.ref? = some r) : Confined [r] op.act := by
  intro p q hp _ hp_failures hq_failures hsame
  have hobject : q.object? r = p.object? r := hsame r List.mem_cons_self
  refine ⟨(op.answer p).map Answer.unversioned, op.effect (p.object? r),
    ⟨r, List.mem_cons_self, op.effect_at h (hp.ref_eq r)⟩, ?_, ?_⟩
  · rw [act, op.apply_eq_run h fun _ _ => hp_failures]
  · rw [act, op.apply_eq_run h fun _ _ => hq_failures, hobject,
      answer_congr h hp_failures hq_failures hobject]

end Platform

end Handover
