import Handover.Id
import Handover.Ref

/-!
# Errors

What the platform, a pass over a migration and the migrator can answer instead of a result. Each
error is a cause with its data; `message` is its wording.
-/

namespace Handover

/-- What a platform answers when it does not do what it was asked. -/
inductive PlatformError where
  | notFound (ref : ResourceRef)
  | alreadyExists (ref : ResourceRef)
  | conflict (ref : ResourceRef) (expected actual : Nat)
  | invalid (reason : String)
  | unavailable (reason : String)
  deriving DecidableEq

namespace PlatformError

/-- The wording of a platform error. -/
def message : PlatformError → String
  | notFound ref => ref.text ++ " not found"
  | alreadyExists ref => ref.text ++ " already exists"
  | conflict ref expected actual =>
    "conflict updating " ++ ref.text ++ ": resource version " ++ toString expected ++
      " is stale (current " ++ toString actual ++ ")"
  | invalid reason => "invalid request: " ++ reason
  | unavailable reason => "platform unavailable: " ++ reason

/-- The name of the kind of error. -/
def label : PlatformError → String
  | notFound _ => "NotFound"
  | alreadyExists _ => "AlreadyExists"
  | conflict .. => "Conflict"
  | invalid _ => "Invalid"
  | unavailable _ => "Unavailable"

/-- Whether the same request may succeed later. -/
def retryable : PlatformError → Bool
  | conflict .. | unavailable _ => true
  | _ => false

end PlatformError

/-- A write that did not land and is worth another attempt. -/
structure WriteError where
  resource : ResourceRef
  attempt : Nat
  source : PlatformError
  deriving DecidableEq

/-- The wording of a write error. -/
def WriteError.message (e : WriteError) : String :=
  "write to " ++ e.resource.text ++ " failed (attempt " ++ toString e.attempt ++ "): " ++
    e.source.message

/-- What is wrong with a request. -/
inductive RequestFault where
  | replicas (count : Int)
  | maxSurge (count : Int)
  | timeoutSeconds (count : Int)
  | incremental (src : ResourceRef)
  | other (reason : String)
  deriving DecidableEq

/-- The wording of a fault. -/
def RequestFault.message : RequestFault → String
  | replicas count => "invalid replicas " ++ toString count
  | maxSurge count => "maxSurge must be an integer greater than zero, got " ++ toString count
  | timeoutSeconds count => "timeoutSeconds must be greater than zero, got " ++ toString count
  | incremental src => src.text ++ " is migrated incrementally, not in one shot"
  | other reason => reason

/-- Why the migrator did not do what it was asked. -/
inductive MigrationError where
  | invalidOptions (fault : RequestFault)
  | unsupportedPair (src dst : ResourceRef)
  | alreadyExecuting (ref : ResourceRef)
  | destinationExists (ref : ResourceRef)
  | taskNotFound (id : MigrationId)
  | platform (e : PlatformError)
  | timeout (id : MigrationId) (seconds : Nat)
  | shuttingDown
  deriving DecidableEq

namespace MigrationError

/-- The wording of a migration error. -/
def message : MigrationError → String
  | invalidOptions fault => "invalid options: " ++ fault.message
  | unsupportedPair src dst => "unsupported migration from " ++ src.text ++ " to " ++ dst.text
  | alreadyExecuting ref => "already existing migration task for " ++ ref.text
  | destinationExists ref => "destination " ++ ref.text ++ " already exists"
  | taskNotFound id => "not found task " ++ id.text
  | platform e => "platform error: " ++ e.message
  | timeout id seconds =>
    "migration " ++ id.text ++ " not finished after " ++ toString seconds ++ "s"
  | shuttingDown => "migrator is shutting down"

/-- The name of the kind of error. -/
def label : MigrationError → String
  | invalidOptions _ => "InvalidOptions"
  | unsupportedPair .. => "UnsupportedPair"
  | alreadyExecuting _ => "AlreadyExecuting"
  | destinationExists _ => "DestinationExists"
  | taskNotFound _ => "TaskNotFound"
  | platform _ => "Platform"
  | timeout .. => "Timeout"
  | shuttingDown => "ShuttingDown"

/-- Whether the request itself is at fault. -/
def isValidation : MigrationError → Bool
  | invalidOptions _ | unsupportedPair .. | alreadyExecuting _ | destinationExists _ => true
  | _ => false

end MigrationError

end Handover
