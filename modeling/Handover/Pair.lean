import Handover.Ref

/-!
# Pairs of kinds

A migration goes from a native kind to its advanced counterpart. The pair fixes the strategy:
replicas either move step by step under a surge bound, or the whole workload changes hands at once.
-/

namespace Handover

/-- How the replicas of a pair change hands. -/
inductive Strategy where
  | boundedSurge
  | oneShot
  deriving DecidableEq

/-- The name of a strategy. -/
def Strategy.label : Strategy → String
  | .boundedSurge => "BoundedSurge"
  | .oneShot => "OneShot"

/-- The kinds a migration can go from and to. -/
inductive Pair where
  | deploymentToCloneSet
  | daemonSetToAdvanced
  | statefulSetToAdvanced
  deriving DecidableEq

namespace Pair

/-- Every pair. -/
def all : List Pair :=
  [.deploymentToCloneSet, .daemonSetToAdvanced, .statefulSetToAdvanced]

/-- The name of a pair. -/
def label : Pair → String
  | .deploymentToCloneSet => "DeploymentToCloneSet"
  | .daemonSetToAdvanced => "DaemonSetToAdvancedDaemonSet"
  | .statefulSetToAdvanced => "StatefulSetToAdvancedStatefulSet"

/-- The pair with this name. -/
def ofLabel? (label : String) : Option Pair :=
  all.find? (·.label = label)

/-- The kind a pair starts from. -/
def srcKind : Pair → WorkloadKind
  | .deploymentToCloneSet => .deployment
  | .daemonSetToAdvanced => .daemonSet
  | .statefulSetToAdvanced => .statefulSet

/-- The kind a pair ends in. -/
def dstKind : Pair → WorkloadKind
  | .deploymentToCloneSet => .cloneSet
  | .daemonSetToAdvanced => .advancedDaemonSet
  | .statefulSetToAdvanced => .advancedStatefulSet

/-- The strategy of a pair. -/
def strategy : Pair → Strategy
  | .deploymentToCloneSet => .boundedSurge
  | .daemonSetToAdvanced | .statefulSetToAdvanced => .oneShot

/-- The pair that two references name. -/
def ofRefs? (src dst : ResourceRef) : Option Pair :=
  all.find? fun p => src.kind? = some p.srcKind ∧ dst.kind? = some p.dstKind

/-! ## Small lemmas -/

theorem ofRefs?_eq_some_iff {src dst : ResourceRef} {p : Pair} :
    ofRefs? src dst = some p ↔ src.kind? = some p.srcKind ∧ dst.kind? = some p.dstKind := by
  constructor
  · intro h
    simpa using List.find?_some h
  · rintro ⟨hs, hd⟩
    cases p <;> simp [ofRefs?, all, hs, hd, srcKind, dstKind]

end Pair

end Handover
