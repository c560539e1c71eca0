import Handover.Id
import Handover.Json.Decode
import Handover.Plan

/-!
# Snapshots

A `Snapshot` is what a caller is told about a migration: its phase, a message that is empty unless
something went wrong, and its counters.
-/

namespace Handover

/-- Where a migration stands. -/
inductive Phase where
  | executing
  | succeeded
  | failed
  deriving DecidableEq

namespace Phase

/-- Every phase. -/
def all : List Phase :=
  [.executing, .succeeded, .failed]

/-- The name of a phase. -/
def label : Phase → String
  | .executing => "Executing"
  | .succeeded => "Succeeded"
  | .failed => "Failed"

/-- The phase with this name. -/
def ofLabel? (label : String) : Option Phase :=
  all.find? (·.label = label)

/-- Whether a phase is final. -/
def isTerminal : Phase → Bool
  | .executing => false
  | .succeeded | .failed => true

end Phase

/-- What a caller is told about a migration. -/
structure Snapshot where
  id : MigrationId
  phase : Phase
  message : String
  counters : Counters
  deriving DecidableEq

namespace Snapshot

/-- Whether replicas moved between two snapshots. -/
def progressedSince (s earlier : Snapshot) : Bool :=
  s.counters ≠ earlier.counters

/-- The fields of a snapshot, in order, with the identifier written as given. -/
def fields (s : Snapshot) (id : String) : List (String × Json) :=
  [("id", .str id),
   ("state", .str s.phase.label),
   ("message", .str s.message),
   ("src_migrated_replicas", .int s.counters.src),
   ("dst_migrated_replicas", .int s.counters.dst)]

/-- The identifier that a JSON value writes. -/
def id? (j : Json) : Option MigrationId :=
  (j.str?).bind fun s => (MigrationId.parse s).toOption

/-- The snapshot that a JSON value writes. -/
def ofJson? (j : Json) : Option Snapshot := do
  let r ← j.record? 5
  let id ← r.required 0 "id" id?
  let phase ← r.required 1 "state" fun j => (j.name?).bind Phase.ofLabel?
  let message ← r.required 2 "message" Json.str?
  let src ← r.required 3 "src_migrated_replicas" Json.int32?
  let dst ← r.required 4 "dst_migrated_replicas" Json.int32?
  return { id, phase, message, counters := ⟨src, dst⟩ }

end Snapshot

end Handover
