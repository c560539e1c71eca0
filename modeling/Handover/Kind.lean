/-!
# Workload kinds

A migration moves replicas between two *workloads*, and every workload has one of six kinds: the
three native ones and the advanced counterpart of each. A kind is served under an API version and
a kind name; two kinds may share either, but never both, so the pair determines the kind
(`ofTypeMeta?_apiVersion_name`).
-/

namespace Handover

/-- The kinds of workload that a migration can start from or end in. -/
inductive WorkloadKind where
  | deployment
  | cloneSet
  | daemonSet
  | advancedDaemonSet
  | statefulSet
  | advancedStatefulSet
  deriving DecidableEq

namespace WorkloadKind

/-- Every kind, each native kind followed by its advanced counterpart. -/
def all : List WorkloadKind :=
  [.deployment, .cloneSet, .daemonSet, .advancedDaemonSet, .statefulSet, .advancedStatefulSet]

/-- The position of a kind in `all`, by which kinds are sorted. -/
def rank : WorkloadKind → Nat
  | .deployment => 0
  | .cloneSet => 1
  | .daemonSet => 2
  | .advancedDaemonSet => 3
  | .statefulSet => 4
  | .advancedStatefulSet => 5

/-- The name that tells all six kinds apart. -/
def label : WorkloadKind → String
  | .deployment => "Deployment"
  | .cloneSet => "CloneSet"
  | .daemonSet => "DaemonSet"
  | .advancedDaemonSet => "AdvancedDaemonSet"
  | .statefulSet => "StatefulSet"
  | .advancedStatefulSet => "AdvancedStatefulSet"

/-- The API version that serves a kind. -/
def apiVersion : WorkloadKind → String
  | .deployment | .daemonSet | .statefulSet => "apps/v1"
  | .cloneSet | .advancedDaemonSet => "apps.kruise.io/v1alpha1"
  | .advancedStatefulSet => "apps.kruise.io/v1beta1"

/-- The name of a kind within its API version. -/
def name : WorkloadKind → String
  | .deployment => "Deployment"
  | .cloneSet => "CloneSet"
  | .daemonSet | .advancedDaemonSet => "DaemonSet"
  | .statefulSet | .advancedStatefulSet => "StatefulSet"

/-- The kind with this label. -/
def ofLabel? (label : String) : Option WorkloadKind :=
  all.find? (·.label = label)

/-- The kind served under this API version and kind name. -/
def ofTypeMeta? (apiVersion name : String) : Option WorkloadKind :=
  all.find? fun k => k.apiVersion = apiVersion ∧ k.name = name

/-- A kind as text: its API version, then its name. -/
def text (k : WorkloadKind) : String :=
  k.apiVersion ++ ", " ++ k.name

/-- Kinds in the order of `all`. -/
def sort (kinds : List WorkloadKind) : List WorkloadKind :=
  kinds.mergeSort fun a b => a.rank ≤ b.rank

/-! ## Small lemmas -/

theorem mem_all (k : WorkloadKind) : k ∈ all := by
  cases k <;> decide

theorem ofLabel?_label (k : WorkloadKind) : ofLabel? k.label = some k := by
  cases k <;> decide

theorem ofTypeMeta?_apiVersion_name (k : WorkloadKind) :
    ofTypeMeta? k.apiVersion k.name = some k := by
  cases k <;> decide

end WorkloadKind

end Handover
