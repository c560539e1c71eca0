import Handover.Convert
import Mathlib.Tactic.Tauto

/-!
# What a conversion carries

Two sources are converted to the same destination just if they agree in what their pair carries
(`Pair.CarriesAlike`). Nothing that is carried is lost, and of all the rest nothing shows in the
destination (`Workload.convert_eq_iff_carriesAlike`). The same holds where the sign of a zero makes
no difference: converting an object and dropping the signs of its zeros may change places
(`Workload.plain_convert`).
-/

namespace Handover

/-- Two sources agree in what every conversion carries. -/
structure Workload.SameCore (v w : Workload) : Prop where
  ns : v.metadata.ns = w.metadata.ns
  labels : v.metadata.labels = w.metadata.labels
  selector : v.spec.selector = w.spec.selector
  template : v.spec.template = w.spec.template

/-- Two deployments agree in what their clone sets take over beyond that. -/
structure Workload.SameRollout (v w : Workload) : Prop where
  annotations : v.metadata.annotations = w.metadata.annotations
  finalizers : v.metadata.finalizers = w.metadata.finalizers
  replicas : v.spec.replicas = w.spec.replicas
  rollingUpdate : v.spec.updateStrategy.rollingUpdate = w.spec.updateStrategy.rollingUpdate
  paused : v.spec.updateStrategy.paused = w.spec.updateStrategy.paused
  minReadySeconds : v.spec.minReadySeconds = w.spec.minReadySeconds
  revisionHistoryLimit : v.spec.revisionHistoryLimit = w.spec.revisionHistoryLimit

/-- Two stateful sets agree in what their advanced counterparts take over beyond that. -/
structure Workload.SameIdentity (v w : Workload) : Prop where
  replicas : v.spec.replicas = w.spec.replicas
  updateStrategy : v.spec.updateStrategy = w.spec.updateStrategy
  revisionHistoryLimit : v.spec.revisionHistoryLimit = w.spec.revisionHistoryLimit
  serviceName : v.spec.serviceName = w.spec.serviceName
  volumeClaimTemplates : v.spec.volumeClaimTemplates = w.spec.volumeClaimTemplates
  podManagementPolicy : v.spec.podManagementPolicy = w.spec.podManagementPolicy

/-- Two sources agree in what the conversion of a pair carries. -/
def Pair.CarriesAlike (pair : Pair) (v w : Workload) : Prop :=
  v.SameCore w ∧
    match pair with
    | .deploymentToCloneSet => v.SameRollout w
    | .daemonSetToAdvanced => v.spec.updateStrategy.type = w.spec.updateStrategy.type
    | .statefulSetToAdvanced => v.SameIdentity w

namespace Workload

variable {v w : Workload} {name : String}

/-! ## One converter at a time -/

theorem toCloneSet_eq_iff :
    v.toCloneSet name = w.toCloneSet name ↔ v.SameCore w ∧ v.SameRollout w := by
  constructor
  · intro h
    simp only [toCloneSet, Metadata.carried, mk.injEq, Metadata.mk.injEq, Spec.mk.injEq,
      UpdateStrategy.mk.injEq] at h
    exact ⟨by constructor <;> tauto, by constructor <;> tauto⟩
  · rintro ⟨⟨hns, hlabels, hselector, htemplate⟩, ⟨hannotations, hfinalizers, hreplicas,
      hrolling, hpaused, hready, hlimit⟩⟩
    simp only [toCloneSet, Metadata.carried, hns, hlabels, hselector, htemplate, hannotations,
      hfinalizers, hreplicas, hrolling, hpaused, hready, hlimit]

theorem toAdvancedDaemonSet_eq_iff :
    v.toAdvancedDaemonSet name = w.toAdvancedDaemonSet name ↔
      v.SameCore w ∧ v.spec.updateStrategy.type = w.spec.updateStrategy.type := by
  constructor
  · intro h
    simp only [toAdvancedDaemonSet, Metadata.carried, mk.injEq, Metadata.mk.injEq, Spec.mk.injEq,
      UpdateStrategy.mk.injEq] at h
    exact ⟨by constructor <;> tauto, by tauto⟩
  · rintro ⟨⟨hns, hlabels, hselector, htemplate⟩, htype⟩
    simp only [toAdvancedDaemonSet, Metadata.carried, hns, hlabels, hselector, htemplate, htype]

theorem toAdvancedStatefulSet_eq_iff :
    v.toAdvancedStatefulSet name = w.toAdvancedStatefulSet name ↔
      v.SameCore w ∧ v.SameIdentity w := by
  constructor
  · intro h
    simp only [toAdvancedStatefulSet, Metadata.carried, mk.injEq, Metadata.mk.injEq,
      Spec.mk.injEq] at h
    exact ⟨by constructor <;> tauto, by constructor <;> tauto⟩
  · rintro ⟨⟨hns, hlabels, hselector, htemplate⟩, ⟨hreplicas, hstrategy, hlimit, hservice, hclaims,
      hpolicy⟩⟩
    simp only [toAdvancedStatefulSet, Metadata.carried, hns, hlabels, hselector, htemplate,
      hreplicas, hstrategy, hlimit, hservice, hclaims, hpolicy]

theorem convert_eq_iff (pair : Pair) :
    v.convert pair name = w.convert pair name ↔ pair.CarriesAlike v w := by
  cases pair with
  | deploymentToCloneSet => exact toCloneSet_eq_iff
  | daemonSetToAdvanced => exact toAdvancedDaemonSet_eq_iff
  | statefulSetToAdvanced => exact toAdvancedStatefulSet_eq_iff

/-! ## Without the signs of zeros -/

/-- An object in which no zero has a sign. -/
def plain (w : Workload) : Workload :=
  { w with spec := w.spec.plainZeros }

/-- Two objects are equal up to the signs of zeros just if they are the same without them. -/
theorem agrees_iff_plain_eq : v.agrees w = true ↔ v.plain = w.plain := by
  simp only [agrees, Spec.agrees, plain, mk.injEq, decide_eq_true_eq]

/-- A conversion carries zeros as they are, with or without their signs. -/
theorem plain_convert (pair : Pair) (w : Workload) (name : String) :
    (w.convert pair name).plain = w.plain.convert pair name := by
  cases pair <;> rfl

/-! ## All converters -/

/-- An object with another kind, name, generation, version and status. -/
def relabelled (w : Workload) (kind : WorkloadKind) (name : String) (generation : Int)
    (version : Nat) (status : Status) : Workload :=
  { w with
    kind
    metadata := { w.metadata with name, generation, resourceVersion := version }
    status }

/-- Under one name two sources become the same destination just if they agree in all that their pair
carries; where the signs of zeros make no difference to the destinations, they make none to the
sources either. So the kind, the name, the generation, the version and the status of a source never
show in its destination. -/
theorem convert_eq_iff_carriesAlike (pair : Pair) (name : String) (v w : Workload) :
    (v.convert pair name = w.convert pair name ↔ pair.CarriesAlike v w) ∧
      ((v.convert pair name).agrees (w.convert pair name) = true ↔
        pair.CarriesAlike v.plain w.plain) ∧
      ∀ kind other generation version status,
        (v.relabelled kind other generation version status).convert pair name =
          v.convert pair name := by
  refine ⟨convert_eq_iff pair, ?_, ?_⟩
  · rw [agrees_iff_plain_eq, plain_convert, plain_convert]
    exact convert_eq_iff pair
  · intro kind other generation version status
    have hcore : (v.relabelled kind other generation version status).SameCore v :=
      ⟨rfl, rfl, rfl, rfl⟩
    have hcarried : pair.CarriesAlike (v.relabelled kind other generation version status) v := by
      refine ⟨hcore, ?_⟩
      cases pair with
      | deploymentToCloneSet => exact ⟨rfl, rfl, rfl, rfl, rfl, rfl, rfl⟩
      | daemonSetToAdvanced => rfl
      | statefulSetToAdvanced => exact ⟨rfl, rfl, rfl, rfl, rfl, rfl⟩
    exact (convert_eq_iff pair).2 hcarried

end Workload

end Handover
