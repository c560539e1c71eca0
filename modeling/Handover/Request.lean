import Handover.Error
import Handover.Json.Decode

/-!
# Requests and goals

A `Request` is what a caller asks of a migration, each part optional. `Request.resolve` checks it
and fills in the parts left out, which makes it the `Goal` that the migration pursues.
-/

namespace Handover

/-- What a caller asks of a migration. -/
structure Request where
  replicas : Option Int
  maxSurge : Option Int
  timeoutSeconds : Option Int
  copyReplicas : Bool
  deriving DecidableEq

/-- What a migration pursues; times are in milliseconds. -/
structure Goal where
  replicas : Int
  maxSurge : Int
  timeout : Option Nat
  deriving DecidableEq

namespace Request

/-- The request that leaves everything out. -/
def default : Request :=
  ⟨none, none, none, false⟩

/-- Whether the parts given are sensible on their own. -/
def validate (r : Request) : Except RequestFault Unit :=
  match r.replicas.filter (· ≤ 0), r.maxSurge.filter (· < 1), r.timeoutSeconds.filter (· ≤ 0) with
  | some n, _, _ => .error (.replicas n)
  | none, some n, _ => .error (.maxSurge n)
  | none, none, some n => .error (.timeoutSeconds n)
  | none, none, none => .ok ()

/-- The goal of a request, given the replicas that the source declares. -/
def resolve (r : Request) (declared : Int) : Except RequestFault Goal :=
  match r.validate with
  | .error fault => .error fault
  | .ok () =>
    let replicas := r.replicas.getD declared
    if replicas ≤ 0 then .error (.replicas replicas)
    else
      .ok
        { replicas
          maxSurge := r.maxSurge.getD 1
          timeout := r.timeoutSeconds.map fun seconds => seconds.toNat * 1000 }

/-! ## JSON form -/

/-- A request as JSON. -/
def toJson (r : Request) : Json :=
  .ofFields
    [("replicas", .ofOption .int r.replicas),
     ("max_surge", .ofOption .int r.maxSurge),
     ("timeout_seconds", .ofOption .int r.timeoutSeconds),
     ("copy_replicas", .bool r.copyReplicas)]

/-- The request that a JSON value writes. -/
def ofJson? (j : Json) : Option Request := do
  let r ← j.record? 4
  let replicas ← r.optional 0 "replicas" Json.int32?
  let maxSurge ← r.optional 1 "max_surge" Json.int32?
  let timeoutSeconds ← r.optional 2 "timeout_seconds" Json.int32?
  let copyReplicas ← r.defaulted 3 "copy_replicas" Json.bool? false
  return { replicas, maxSurge, timeoutSeconds, copyReplicas }

end Request

end Handover
