import Handover.IntRange
import Handover.Json.Value
import Handover.Keyed
import Handover.Ref

/-!
# Workload objects

A `Workload` is an object as the platform stores it: its kind, its metadata, the specification that
says what shall run, and the status that says what was last seen to run. Pod templates are opaque.
-/

namespace Handover

/-- Who an object is, and which version of it this is. -/
structure Metadata where
  ns : String
  name : String
  labels : Labels := .empty
  annotations : Labels := .empty
  finalizers : List String := []
  generation : Int := 0
  resourceVersion : Nat := 0
  deriving DecidableEq

/-- The bounds of a rolling update, as they were written. -/
structure RollingUpdate where
  maxUnavailable : Option String
  maxSurge : Option String
  partition : Option Int
  deriving DecidableEq

/-- How a workload replaces its pods. -/
structure UpdateStrategy where
  type : String := ""
  rollingUpdate : Option RollingUpdate := none
  paused : Bool := false
  deriving DecidableEq

/-- What shall run. -/
structure Spec where
  replicas : Option Int := none
  selector : Labels := .empty
  template : Json := .null
  updateStrategy : UpdateStrategy := {}
  minReadySeconds : Int := 0
  revisionHistoryLimit : Option Int := none
  serviceName : Option String := none
  volumeClaimTemplates : List Json := []
  podManagementPolicy : Option String := none
  deriving DecidableEq

/-- A specification in which no zero has a sign. -/
def Spec.plainZeros (s : Spec) : Spec :=
  { s with
    template := s.template.plainZeros
    volumeClaimTemplates := s.volumeClaimTemplates.map Json.plainZeros }

/-- Whether two specifications ask for the same; the sign of a zero makes no difference. -/
def Spec.agrees (s t : Spec) : Bool :=
  s.plainZeros = t.plainZeros

/-- What was last seen to run. -/
structure Status where
  observedGeneration : Int := 0
  replicas : Int := 0
  availableReplicas : Int := 0
  deriving DecidableEq

/-- An object of the platform. -/
structure Workload where
  kind : WorkloadKind
  metadata : Metadata
  spec : Spec := {}
  status : Status := {}
  deriving DecidableEq

namespace Workload

/-- An object about which nothing is said but its name. -/
def named (kind : WorkloadKind) (ns name : String) : Workload :=
  { kind, metadata := { ns, name } }

/-- Whether two objects are equal; the sign of a zero makes no difference. -/
def agrees (w v : Workload) : Bool :=
  w.kind = v.kind ∧ w.metadata = v.metadata ∧ w.spec.agrees v.spec ∧ w.status = v.status

/-- The reference to an object. -/
def ref (w : Workload) : ResourceRef :=
  .of w.kind w.metadata.ns w.metadata.name

/-- The declared number of replicas, zero where none is given. -/
def declared (w : Workload) : Int :=
  w.spec.replicas.getD 0

/-- Whether the status speaks of the latest specification. -/
def isObserved (w : Workload) : Bool :=
  w.status.observedGeneration = w.metadata.generation

/-- Whether every declared replica is available. -/
def isFullyAvailable (w : Workload) : Bool :=
  w.declared = w.status.availableReplicas

/-- Declare a number of replicas. -/
def withReplicas (w : Workload) (count : Option Int) : Workload :=
  { w with spec := { w.spec with replicas := count } }

/-- Report a status. -/
def withStatus (w : Workload) (status : Status) : Workload :=
  { w with status }

/-- Set generation and resource version. -/
def stamped (w : Workload) (generation : Int) (version : Nat) : Workload :=
  { w with metadata := { w.metadata with generation, resourceVersion := version } }

/-- The generation of an object once its specification has changed; generations are kept in 64
bits. -/
def nextGeneration (w : Workload) : Int :=
  IntRange.signed64.wrap (w.metadata.generation + 1)

/-- The status of an object whose controller is done with it: the latest specification is observed
and every declared replica is available. -/
def settledStatus (w : Workload) : Status :=
  ⟨w.metadata.generation, w.declared, w.declared⟩

end Workload

end Handover
