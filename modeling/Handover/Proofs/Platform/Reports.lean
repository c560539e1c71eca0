import Handover.Proofs.Platform.Evolution

/-!
# Status reports

Some operations report statuses or let failures be awaited, and do nothing else
(`Operation.Reports`). What can be said of an object without looking at its status and its version
(`Workload.Lasting`) is the same after a report as it was before (`map_object?_of_reports`).
-/

namespace Handover

variable {α : Type} {f : Workload → α}

/-- What a function says of an object depends neither on its status nor on its version. -/
def Workload.Lasting (f : Workload → α) : Prop :=
  ∀ w status version, f ((w.withStatus status).stamped w.metadata.generation version) = f w

/-- The object with neither status nor version. -/
def Workload.unreported (w : Workload) : Workload :=
  (w.withStatus {}).stamped w.metadata.generation 0

theorem Workload.lasting_unreported : Workload.Lasting Workload.unreported :=
  fun _ _ _ => rfl

namespace Platform

/-- An operation that reports statuses or lets failures be awaited. -/
def Operation.Reports : Operation → Prop
  | setStatus .. | settle _ | settleKind _ | settleAll | failNextUpdates .. => True
  | put _ | create _ | update _ | delete .. => False

variable {p : Platform}

/-- Storing an object of which the same is said as of the one in its place changes nothing that is
said. -/
theorem map_object?_store {w : Workload} (h : (p.object? w.ref).map f = some (f w))
    (change : Change) (r : ResourceRef) :
    ((p.store change w).object? r).map f = (p.object? r).map f := by
  rw [object?_store]
  by_cases hr : r = w.ref
  · rw [if_pos hr, hr, h]
    rfl
  · rw [if_neg hr]

theorem map_object?_setStatus (hf : Workload.Lasting f) (hp : p.Sound) (s : ResourceRef)
    (status : Status) (r : ResourceRef) :
    ((p.setStatus s status).2.object? r).map f = (p.object? r).map f := by
  rw [setStatus_eq]
  cases hw : p.object? s with
  | none => rfl
  | some w =>
    apply map_object?_store
    -- the object is stored under the reference by which it was found
    have href : w.ref = s := hp.ref_eq s w hw
    rw [Workload.ref_stamped, Workload.ref_withStatus, href, hw, hf]
    rfl

theorem map_object?_settle (hf : Workload.Lasting f) (hp : p.Sound) (s r : ResourceRef) :
    ((p.settle s).2.object? r).map f = (p.object? r).map f := by
  unfold settle
  cases p.object? s with
  | none => rfl
  | some w =>
    dsimp only
    split
    · rfl
    · exact map_object?_setStatus hf hp s _ r

theorem map_object?_settleEach (hf : Workload.Lasting f) (hp : p.Sound) (refs : List ResourceRef)
    (r : ResourceRef) : ((p.settleEach refs).2.object? r).map f = (p.object? r).map f := by
  induction refs generalizing p with
  | nil => rfl
  | cons s rest ih =>
    have hsettle := map_object?_settle hf hp s r
    have hrest := ih ((evolves_settle p s).sound hp)
    exact hrest.trans hsettle

theorem map_object?_settleKinds (hf : Workload.Lasting f) (hp : p.Sound)
    (kinds : List WorkloadKind) (r : ResourceRef) :
    ((p.settleKinds kinds).2.object? r).map f = (p.object? r).map f := by
  induction kinds generalizing p with
  | nil => rfl
  | cons kind rest ih =>
    have hsettle := map_object?_settleEach hf hp (p.refsOfKind kind) r
    have hrest := ih ((evolves_settleKind p kind).sound hp)
    exact hrest.trans hsettle

/-- A report leaves what can be said of an object without its status and its version. -/
theorem map_object?_of_reports (hf : Workload.Lasting f) (hp : p.Sound) (op : Operation)
    (hop : op.Reports) (r : ResourceRef) :
    ((op.apply p).object? r).map f = (p.object? r).map f := by
  cases op with
  | setStatus s status => exact map_object?_setStatus hf hp s status r
  | settle s => exact map_object?_settle hf hp s r
  | settleKind kind => exact map_object?_settleEach hf hp _ r
  | settleAll => exact map_object?_settleKinds hf hp _ r
  | failNextUpdates e count => rfl
  | put w => exact hop.elim
  | create w => exact hop.elim
  | update w => exact hop.elim
  | delete s propagation => exact hop.elim

end Platform

end Handover
