import Handover.Platform
import Mathlib.Logic.Relation

/-!
# How a platform evolves

Whatever is done to a platform comes down to three kinds of `Edit`: the awaited failures change, an
object is stored under the next version, an object is removed. Every operation is a sequence of
edits (`Operation.evolves`), so a property that edits keep is kept by everything. Two such
properties are that objects are stored under their own references and that no stored version is
still to come (`Platform.Sound`).
-/

namespace Handover

namespace Workload

theorem kind?_ref (w : Workload) : w.ref.kind? = some w.kind :=
  ResourceRef.kind?_of w.kind w.metadata.ns w.metadata.name

@[simp]
theorem ref_withStatus (w : Workload) (status : Status) : (w.withStatus status).ref = w.ref :=
  rfl

@[simp]
theorem ref_stamped (w : Workload) (generation : Int) (version : Nat) :
    (w.stamped generation version).ref = w.ref :=
  rfl

end Workload

namespace Platform

/-! ## Edits -/

/-- The platform without an object, with the deletion remembered and told. -/
def remove (p : Platform) (r : ResourceRef) (w : Workload) (propagation : Propagation) : Platform :=
  { p with
    objects := p.objects.erase r
    deletions := p.deletions ++ [(r, propagation)]
    logs := p.logs.emit .deleted w }

/-- One elementary change of a platform. -/
inductive Edit (p : Platform) : Platform → Prop
  | failures (fs : List PlatformError) : Edit p { p with failures := fs }
  | store (change : Change) (w : Workload) (h : w.metadata.resourceVersion = p.nextVersion) :
      Edit p (p.store change w)
  | remove (r : ResourceRef) (w : Workload) (propagation : Propagation)
      (h : p.object? r = some w) : Edit p (p.remove r w propagation)

/-- A platform becomes another one by edits. -/
def Evolves : Platform → Platform → Prop :=
  Relation.ReflTransGen Edit

theorem Evolves.refl (p : Platform) : p.Evolves p :=
  Relation.ReflTransGen.refl

theorem Evolves.trans {p q r : Platform} (h : p.Evolves q) (h' : q.Evolves r) : p.Evolves r :=
  Relation.ReflTransGen.trans h h'

theorem Edit.evolves {p q : Platform} (h : p.Edit q) : p.Evolves q :=
  Relation.ReflTransGen.single h

/-! ## Operations -/

/-- Something that can be done to a platform. -/
inductive Operation where
  | put (w : Workload)
  | setStatus (r : ResourceRef) (status : Status)
  | settle (r : ResourceRef)
  | settleKind (kind : WorkloadKind)
  | settleAll
  | failNextUpdates (e : PlatformError) (count : Nat)
  | create (w : Workload)
  | update (w : Workload)
  | delete (r : ResourceRef) (propagation : Propagation)

/-- The platform after an operation, whatever it answers. -/
def Operation.apply (p : Platform) : Operation → Platform
  | put w => (p.put w).2
  | setStatus r status => (p.setStatus r status).2
  | settle r => (p.settle r).2
  | settleKind kind => (p.settleKind kind).2
  | settleAll => p.settleAll.2
  | failNextUpdates e count => p.failNextUpdates e count
  | create w => (p.create w).2
  | update w => (p.update w).2
  | delete r propagation => (p.delete r propagation).2

/-- Setting a status stores the object with that status, if it is there. -/
theorem setStatus_eq (p : Platform) (r : ResourceRef) (status : Status) :
    p.setStatus r status =
      match p.object? r with
      | none => (.error (.notFound r), p)
      | some w =>
        (.ok ((w.withStatus status).stamped w.metadata.generation p.nextVersion),
          p.store .modified ((w.withStatus status).stamped w.metadata.generation p.nextVersion)) :=
  rfl

theorem evolves_setStatus (p : Platform) (r : ResourceRef) (status : Status) :
    p.Evolves (p.setStatus r status).2 := by
  rw [setStatus_eq]
  cases p.object? r with
  | none => exact .refl p
  | some w => exact (Edit.store _ _ rfl).evolves

theorem evolves_settle (p : Platform) (r : ResourceRef) : p.Evolves (p.settle r).2 := by
  unfold settle
  cases p.object? r with
  | none => exact .refl p
  | some w =>
    dsimp only
    split
    · exact .refl p
    · exact evolves_setStatus p r _

theorem evolves_settleEach (p : Platform) (refs : List ResourceRef) :
    p.Evolves (p.settleEach refs).2 := by
  induction refs generalizing p with
  | nil => exact .refl p
  | cons r rest ih => exact (evolves_settle p r).trans (ih _)

theorem evolves_settleKind (p : Platform) (kind : WorkloadKind) :
    p.Evolves (p.settleKind kind).2 :=
  evolves_settleEach p _

theorem evolves_settleKinds (p : Platform) (kinds : List WorkloadKind) :
    p.Evolves (p.settleKinds kinds).2 := by
  induction kinds generalizing p with
  | nil => exact .refl p
  | cons kind rest ih => exact (evolves_settleKind p kind).trans (ih _)

theorem evolves_create (p : Platform) (w : Workload) : p.Evolves (p.create w).2 := by
  unfold create
  split
  · exact .refl p
  split
  · exact .refl p
  · exact (Edit.store _ _ rfl).evolves

theorem evolves_replace (p : Platform) (w : Workload) : p.Evolves (p.replace w).2 := by
  unfold replace
  cases p.object? w.ref with
  | none => exact .refl p
  | some current =>
    dsimp only
    split
    · exact .refl p
    · exact (Edit.store _ _ rfl).evolves

theorem evolves_update (p : Platform) (w : Workload) : p.Evolves (p.update w).2 := by
  unfold update
  split
  · exact (Edit.failures _).evolves
  · exact evolves_replace p w

theorem evolves_delete (p : Platform) (r : ResourceRef) (propagation : Propagation) :
    p.Evolves (p.delete r propagation).2 := by
  unfold delete
  cases h : p.object? r with
  | none => exact .refl p
  | some w => exact (Edit.remove r w propagation h).evolves

/-- Every operation is a sequence of edits. -/
theorem Operation.evolves (op : Operation) (p : Platform) : p.Evolves (op.apply p) := by
  cases op with
  | put w => exact (Edit.store _ _ rfl).evolves
  | setStatus r status => exact evolves_setStatus p r status
  | settle r => exact evolves_settle p r
  | settleKind kind => exact evolves_settleKind p kind
  | settleAll => exact evolves_settleKinds p _
  | failNextUpdates e count => exact (Edit.failures _).evolves
  | create w => exact evolves_create p w
  | update w => exact evolves_update p w
  | delete r propagation => exact evolves_delete p r propagation

/-- The platform after some operations. -/
def after (p : Platform) (ops : List Operation) : Platform :=
  ops.foldl Operation.apply p

theorem evolves_after (p : Platform) (ops : List Operation) : p.Evolves (p.after ops) := by
  induction ops generalizing p with
  | nil => exact .refl p
  | cons op rest ih => exact (op.evolves p).trans (ih _)

/-! ## Updates -/

/-- What an accepted update stores in place of an object: the status stays, and the generation
becomes the next one if the specification changes. -/
def revision (p : Platform) (current w : Workload) : Workload :=
  (w.withStatus current.status).stamped
    (if w.spec.agrees current.spec then current.metadata.generation
      else current.nextGeneration) p.nextVersion

/-- All that can come of an update: an awaited failure, a missing object, a conflict, or the revised
object stored. -/
theorem update_eq (p : Platform) (w : Workload) :
    p.update w =
      match p.failures, p.object? w.ref with
      | e :: rest, _ => (.error e, { p with failures := rest })
      | [], none => (.error (.notFound w.ref), p)
      | [], some current =>
        if current.metadata.resourceVersion ≠ w.metadata.resourceVersion then
          (.error (.conflict w.ref w.metadata.resourceVersion current.metadata.resourceVersion), p)
        else (.ok (p.revision current w), p.store .modified (p.revision current w)) := by
  unfold update replace
  cases p.failures with
  | cons e rest => rfl
  | nil => cases p.object? w.ref <;> rfl

/-- An object that is created has a name. -/
theorem of_create_eq_ok {p q : Platform} {w created : Workload}
    (h : p.create w = (.ok created, q)) :
    w.metadata.name ≠ "" ∧ created = (w.withStatus {}).stamped 1 p.nextVersion ∧
      q = p.store .added created := by
  unfold create at h
  split at h
  · cases h
  · next hname =>
    split at h
    · cases h
    · cases h
      exact ⟨fun hempty => hname (String.isEmpty_iff.2 hempty), rfl, rfl⟩

/-- An update that is accepted found the version that it is based on. -/
theorem of_update_eq_ok {p p' : Platform} {w written : Workload}
    (h : p.update w = (.ok written, p')) :
    ∃ current, p.object? w.ref = some current ∧
      current.metadata.resourceVersion = w.metadata.resourceVersion ∧
      written = p.revision current w ∧ p' = p.store .modified written := by
  rw [update_eq] at h
  split at h
  · cases h
  · cases h
  · next current hfailures hcurrent =>
    split at h
    · cases h
    · next hversion =>
      cases h
      exact ⟨current, hcurrent, Decidable.not_not.1 hversion, rfl, rfl⟩

/-- An update that is refused changes no object. -/
theorem objects_of_update_eq_error {p p' : Platform} {w : Workload} {e : PlatformError}
    (h : p.update w = (.error e, p')) : p'.objects = p.objects := by
  rw [update_eq] at h
  split at h
  · cases h; rfl
  · cases h; rfl
  · split at h
    · cases h; rfl
    · cases h

/-! ## What is stored after an edit -/

theorem object?_store (p : Platform) (change : Change) (w : Workload) (r : ResourceRef) :
    (p.store change w).object? r = if r = w.ref then some w else p.object? r :=
  Table.get?_insert p.objects w.ref r w

theorem object?_remove (p : Platform) (r : ResourceRef) (w : Workload) (propagation : Propagation)
    (s : ResourceRef) :
    (p.remove r w propagation).object? s = if s = r then none else p.object? s :=
  Table.get?_erase p.objects r s

/-- A platform whose objects are stored under their own references, with versions that have been
given out. -/
structure Sound (p : Platform) : Prop where
  ref_eq : ∀ r w, p.object? r = some w → w.ref = r
  version_lt : ∀ r w, p.object? r = some w → w.metadata.resourceVersion < p.nextVersion

theorem sound_empty (capacity : Nat) : (empty capacity).Sound :=
  ⟨fun _ _ h => (nomatch h), fun _ _ h => (nomatch h)⟩

/-- An edit keeps a platform sound. -/
theorem Edit.sound {p q : Platform} (h : p.Edit q) (hp : p.Sound) : q.Sound := by
  cases h with
  | failures fs => exact ⟨hp.ref_eq, hp.version_lt⟩
  | store change w hw =>
    -- the version that was the next one has been given out
    refine ⟨fun r v hv => ?_, fun r v hv => ?_⟩
    · rw [object?_store] at hv
      split at hv
      · next hr => cases hv; exact hr.symm
      · exact hp.ref_eq r v hv
    · rw [object?_store] at hv
      show v.metadata.resourceVersion < p.nextVersion + 1
      split at hv
      · cases hv; omega
      · have := hp.version_lt r v hv; omega
  | remove r w propagation hw =>
    have hget : ∀ s v, (p.remove r w propagation).object? s = some v → p.object? s = some v := by
      intro s v hv
      rw [object?_remove] at hv
      split at hv
      · cases hv
      · exact hv
    exact ⟨fun s v hv => hp.ref_eq s v (hget s v hv), fun s v hv => hp.version_lt s v (hget s v hv)⟩

/-- A sound platform stays sound. -/
theorem Evolves.sound {p q : Platform} (h : p.Evolves q) (hp : p.Sound) : q.Sound := by
  induction h with
  | refl => exact hp
  | tail _ hedit ih => exact hedit.sound ih

/-- Operations on an empty platform lead to a sound one. -/
theorem sound_after (capacity : Nat) (ops : List Operation) : ((empty capacity).after ops).Sound :=
  (evolves_after _ ops).sound (sound_empty capacity)

end Platform

end Handover
