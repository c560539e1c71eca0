import Handover.Json.Decode
import Handover.Workload

/-!
# The JSON form of workload objects

Every object is written with all its fields. Reading fills in the fields that have a default and
ignores fields it does not know.
-/

namespace Handover

/-- Metadata as JSON. -/
def Metadata.toJson (m : Metadata) : Json :=
  .ofFields
    [("namespace", .str m.ns),
     ("name", .str m.name),
     ("labels", .ofLabels m.labels),
     ("annotations", .ofLabels m.annotations),
     ("finalizers", .arr (m.finalizers.map .str)),
     ("generation", .int m.generation),
     ("resourceVersion", .int m.resourceVersion)]

/-- The metadata that a JSON value writes. -/
def Metadata.ofJson? (j : Json) : Option Metadata := do
  let r ← j.record? 7
  let ns ← r.required 0 "namespace" Json.str?
  let name ← r.required 1 "name" Json.str?
  let labels ← r.defaulted 2 "labels" Json.labels? .empty
  let annotations ← r.defaulted 3 "annotations" Json.labels? .empty
  let finalizers ← r.defaulted 4 "finalizers" (Json.list? Json.str?) []
  let generation ← r.defaulted 5 "generation" Json.int64? 0
  let resourceVersion ← r.defaulted 6 "resourceVersion" Json.nat64? 0
  return { ns, name, labels, annotations, finalizers, generation, resourceVersion }

/-- The bounds of a rolling update as JSON. -/
def RollingUpdate.toJson (u : RollingUpdate) : Json :=
  .ofFields
    [("maxUnavailable", .ofOption .str u.maxUnavailable),
     ("maxSurge", .ofOption .str u.maxSurge),
     ("partition", .ofOption .int u.partition)]

/-- The bounds of a rolling update that a JSON value writes. -/
def RollingUpdate.ofJson? (j : Json) : Option RollingUpdate := do
  let r ← j.record? 3
  let maxUnavailable ← r.optional 0 "maxUnavailable" Json.str?
  let maxSurge ← r.optional 1 "maxSurge" Json.str?
  let partition ← r.optional 2 "partition" Json.int32?
  return { maxUnavailable, maxSurge, partition }

/-- An update strategy as JSON. -/
def UpdateStrategy.toJson (u : UpdateStrategy) : Json :=
  .ofFields
    [("type", .str u.type),
     ("rollingUpdate", .ofOption RollingUpdate.toJson u.rollingUpdate),
     ("paused", .bool u.paused)]

/-- The update strategy that a JSON value writes. -/
def UpdateStrategy.ofJson? (j : Json) : Option UpdateStrategy := do
  let r ← j.record? 3
  let type ← r.required 0 "type" Json.str?
  let rollingUpdate ← r.optional 1 "rollingUpdate" RollingUpdate.ofJson?
  let paused ← r.defaulted 2 "paused" Json.bool? false
  return { type, rollingUpdate, paused }

/-- A specification as JSON. -/
def Spec.toJson (s : Spec) : Json :=
  .ofFields
    [("replicas", .ofOption .int s.replicas),
     ("selector", .ofLabels s.selector),
     ("template", s.template),
     ("updateStrategy", s.updateStrategy.toJson),
     ("minReadySeconds", .int s.minReadySeconds),
     ("revisionHistoryLimit", .ofOption .int s.revisionHistoryLimit),
     ("serviceName", .ofOption .str s.serviceName),
     ("volumeClaimTemplates", .arr s.volumeClaimTemplates),
     ("podManagementPolicy", .ofOption .str s.podManagementPolicy)]

/-- The specification that a JSON value writes. -/
def Spec.ofJson? (j : Json) : Option Spec := do
  let r ← j.record? 9
  let replicas ← r.optional 0 "replicas" Json.int32?
  let selector ← r.defaulted 1 "selector" Json.labels? .empty
  let template ← r.defaulted 2 "template" some .null
  let updateStrategy ← r.defaulted 3 "updateStrategy" UpdateStrategy.ofJson? {}
  let minReadySeconds ← r.defaulted 4 "minReadySeconds" Json.int32? 0
  let revisionHistoryLimit ← r.optional 5 "revisionHistoryLimit" Json.int32?
  let serviceName ← r.optional 6 "serviceName" Json.str?
  let volumeClaimTemplates ← r.defaulted 7 "volumeClaimTemplates" (Json.list? some) []
  let podManagementPolicy ← r.optional 8 "podManagementPolicy" Json.str?
  return { replicas, selector, template, updateStrategy, minReadySeconds, revisionHistoryLimit,
           serviceName, volumeClaimTemplates, podManagementPolicy }

/-- A status as JSON. -/
def Status.toJson (s : Status) : Json :=
  .ofFields
    [("observedGeneration", .int s.observedGeneration),
     ("replicas", .int s.replicas),
     ("availableReplicas", .int s.availableReplicas)]

/-- The status that a JSON value writes. -/
def Status.ofJson? (j : Json) : Option Status := do
  let r ← j.record? 3
  let observedGeneration ← r.required 0 "observedGeneration" Json.int64?
  let replicas ← r.required 1 "replicas" Json.int32?
  let availableReplicas ← r.required 2 "availableReplicas" Json.int32?
  return { observedGeneration, replicas, availableReplicas }

/-- The kind that a JSON value names. -/
def WorkloadKind.ofJson? (j : Json) : Option WorkloadKind :=
  (j.name?).bind WorkloadKind.ofLabel?

/-- An object as JSON. -/
def Workload.toJson (w : Workload) : Json :=
  .ofFields
    [("kind", .str w.kind.label),
     ("metadata", w.metadata.toJson),
     ("spec", w.spec.toJson),
     ("status", w.status.toJson)]

/-- The object that a JSON value writes. -/
def Workload.ofJson? (j : Json) : Option Workload := do
  let r ← j.record? 4
  let kind ← r.required 0 "kind" WorkloadKind.ofJson?
  let metadata ← r.required 1 "metadata" Metadata.ofJson?
  let spec ← r.required 2 "spec" Spec.ofJson?
  let status ← r.defaulted 3 "status" Status.ofJson? {}
  return { kind, metadata, spec, status }

/-- A reference as JSON. -/
def ResourceRef.toJson (r : ResourceRef) : Json :=
  .ofFields
    [("apiVersion", .str r.apiVersion),
     ("kind", .str r.kind),
     ("namespace", .str r.ns),
     ("name", .str r.name)]

/-- The reference that a JSON object writes with its four fields, or a JSON array with the name of
a workload kind, a namespace and a name. -/
def ResourceRef.ofJson? : Json → Option ResourceRef
  | .arr [.str label, .str ns, .str name] => (WorkloadKind.ofLabel? label).map (.of · ns name)
  | .obj fields => do
    let apiVersion ← (Keyed.find? "apiVersion" fields).bind Json.str?
    let kind ← (Keyed.find? "kind" fields).bind Json.str?
    let ns ← (Keyed.find? "namespace" fields).bind Json.str?
    let name ← (Keyed.find? "name" fields).bind Json.str?
    return { apiVersion, kind, ns, name }
  | _ => none

end Handover
