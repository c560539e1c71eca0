import Handover.Kind

/-!
# References to workloads

A `ResourceRef` names one object of the platform. It is made of text and may therefore also name
something that is no workload; `ResourceRef.kind?` tells. References are ordered by API version,
kind, namespace and name, each by code point.
-/

namespace Handover

/-- The identity of an object on the platform. -/
structure ResourceRef where
  apiVersion : String
  kind : String
  ns : String
  name : String
  deriving DecidableEq

namespace ResourceRef

/-- The reference to the workload of this kind, namespace and name. -/
def of (kind : WorkloadKind) (ns name : String) : ResourceRef :=
  ⟨kind.apiVersion, kind.name, ns, name⟩

/-- The kind of workload a reference names, if it names one. -/
def kind? (r : ResourceRef) : Option WorkloadKind :=
  WorkloadKind.ofTypeMeta? r.apiVersion r.kind

/-- A reference as text: kind, API version, then namespace and name. -/
def text (r : ResourceRef) : String :=
  r.kind ++ " " ++ r.apiVersion ++ " " ++ r.ns ++ "/" ++ r.name

/-- The parts by which references are ordered. -/
def key (r : ResourceRef) : List String :=
  [r.apiVersion, r.kind, r.ns, r.name]

/-- Whether a reference stands before another: the first part in which they differ decides. -/
def before (a b : ResourceRef) : Bool :=
  a.key.lex b.key fun s t => s < t

/-- References in order, each written once. -/
def sort (refs : List ResourceRef) : List ResourceRef :=
  (refs.mergeSort fun a b => ¬ b.before a).eraseReps

/-! ## Small lemmas -/

theorem kind?_of (kind : WorkloadKind) (ns name : String) : (of kind ns name).kind? = some kind :=
  WorkloadKind.ofTypeMeta?_apiVersion_name kind

end ResourceRef

end Handover
