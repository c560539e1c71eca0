import Handover.Pair
import Handover.Workload

/-!
# Converting workloads

The destination of a migration is made from its source: `Workload.convert` carries over what the
destination kind has in common with the source kind, under a new name, and leaves the rest at its
default. The platform's own data (generation, resource version, status) is never carried.
-/

namespace Handover

/-- The strategy type of a clone set made from a deployment: pods are made anew. -/
def recreateStrategy : String :=
  "ReCreate"

namespace Metadata

/-- What every conversion carries, under a new name. -/
def carried (m : Metadata) (name : String) : Metadata :=
  { ns := m.ns, name, labels := m.labels }

end Metadata

namespace Workload

/-- The clone set that takes over from a deployment. -/
def toCloneSet (w : Workload) (name : String) : Workload where
  kind := .cloneSet
  metadata :=
    { w.metadata.carried name with
      annotations := w.metadata.annotations
      finalizers := w.metadata.finalizers }
  spec :=
    { replicas := w.spec.replicas
      selector := w.spec.selector
      template := w.spec.template
      updateStrategy :=
        { type := recreateStrategy
          rollingUpdate := w.spec.updateStrategy.rollingUpdate
          paused := w.spec.updateStrategy.paused }
      minReadySeconds := w.spec.minReadySeconds
      revisionHistoryLimit := w.spec.revisionHistoryLimit }

/-- The advanced daemon set that takes over from a daemon set. -/
def toAdvancedDaemonSet (w : Workload) (name : String) : Workload where
  kind := .advancedDaemonSet
  metadata := w.metadata.carried name
  spec :=
    { selector := w.spec.selector
      template := w.spec.template
      updateStrategy := { type := w.spec.updateStrategy.type } }

/-- The advanced stateful set that takes over from a stateful set. -/
def toAdvancedStatefulSet (w : Workload) (name : String) : Workload where
  kind := .advancedStatefulSet
  metadata := w.metadata.carried name
  spec :=
    { replicas := w.spec.replicas
      selector := w.spec.selector
      template := w.spec.template
      updateStrategy := w.spec.updateStrategy
      revisionHistoryLimit := w.spec.revisionHistoryLimit
      serviceName := w.spec.serviceName
      volumeClaimTemplates := w.spec.volumeClaimTemplates
      podManagementPolicy := w.spec.podManagementPolicy }

/-- The destination of a pair made from its source. -/
def convert (pair : Pair) (w : Workload) (name : String) : Workload :=
  match pair with
  | .deploymentToCloneSet => w.toCloneSet name
  | .daemonSetToAdvanced => w.toAdvancedDaemonSet name
  | .statefulSetToAdvanced => w.toAdvancedStatefulSet name

end Workload

end Handover
