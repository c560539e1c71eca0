import Handover.PerKind
import Handover.Workload

/-!
# Watching objects

The platform writes every change of an object to the log of its kind. A `Receiver` is a position in
such a log. Only the latest events of a log are retained: a receiver whose next event is no longer
among them is told how many it missed and goes on with the oldest retained one.
-/

namespace Handover

/-- What happened to an object. -/
inductive Change where
  | added
  | modified
  | deleted
  deriving DecidableEq

/-- The name of a change. -/
def Change.label : Change → String
  | .added => "Added"
  | .modified => "Modified"
  | .deleted => "Deleted"

/-- A change, with the object as it was stored; of a deleted object, as it was last stored. -/
structure Event where
  change : Change
  object : Workload
  deriving DecidableEq

/-- The events of each kind, the oldest first. -/
abbrev Logs :=
  PerKind (Array Event)

namespace Logs

/-- The number of events of all kinds. -/
def size (logs : Logs) : Nat :=
  WorkloadKind.all.foldl (fun n kind => n + (logs.get kind).size) 0

/-- Write an event to the log of its object's kind. -/
def emit (logs : Logs) (change : Change) (object : Workload) : Logs :=
  logs.modify (·.push ⟨change, object⟩) object.kind

end Logs

/-- A reader of one kind's events: the position of its next event, or nothing to come at all. -/
inductive Receiver where
  | closed
  | following (kind : WorkloadKind) (position : Nat)
  deriving DecidableEq

/-- What a receiver gets when it asks for the next event. -/
inductive Delivery where
  | nothingYet
  | event (event : Event) (rest : Receiver)
  | lagged (missed : Nat) (rest : Receiver)
  | closed

/-- The next event of a receiver, of a log that retains the latest `capacity` events. -/
def Receiver.next (capacity : Nat) (logs : Logs) : Receiver → Delivery
  | closed => .closed
  | following kind position =>
    let log := logs.get kind
    let oldest := log.size - capacity
    if position < oldest then .lagged (oldest - position) (following kind oldest)
    else
      match log[position]? with
      | some e => .event e (following kind (position + 1))
      | none => .nothingYet

end Handover
