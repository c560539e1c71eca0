import Handover.Pair
import Handover.Request
import Handover.Snapshot

/-!
# Migrations

A `Migration` moves replicas from a source to a destination until it ends. How it ended, with a
message and a time, is `ending`; while that is missing the migration is executing, and once it is
there it stays (`Migration.finish`). Times are milliseconds on the clock of the system.
-/

namespace Handover

/-- The side of a migration. -/
inductive Side where
  | src
  | dst
  deriving DecidableEq

/-- The object generations that a migration's own writes have reached. -/
structure Generations where
  src : Int
  dst : Int
  deriving DecidableEq

namespace Generations

/-- Nothing written yet. -/
def zero : Generations :=
  ⟨0, 0⟩

/-- Record the generation of one side. -/
def record (g : Generations) : Side → Int → Generations
  | .src, n => { g with src := n }
  | .dst, n => { g with dst := n }

end Generations

/-- How and when a migration ended. -/
structure Ending where
  succeeded : Bool
  message : String
  time : Nat
  deriving DecidableEq

/-- A migration from one object to another. -/
structure Migration where
  id : MigrationId
  src : ResourceRef
  dst : ResourceRef
  pair : Pair
  goal : Goal
  started : Nat
  counters : Counters
  ending : Option Ending
  generations : Generations
  writeFailures : Nat
  deriving DecidableEq

namespace Migration

/-- A migration that starts now. -/
def start (id : MigrationId) (src dst : ResourceRef) (pair : Pair) (goal : Goal)
    (baseline : Generations) (now : Nat) : Migration :=
  { id, src, dst, pair, goal
    started := now
    counters := .zero
    ending := none
    generations := baseline
    writeFailures := 0 }

/-- A migration that succeeded the moment it started. -/
def completed (id : MigrationId) (src dst : ResourceRef) (pair : Pair) (replicas : Int)
    (now : Nat) : Migration :=
  { start id src dst pair ⟨replicas, 0, none⟩ .zero now with ending := some ⟨true, "", now⟩ }

/-- The phase of a migration. -/
def phase (m : Migration) : Phase :=
  match m.ending with
  | none => .executing
  | some e => if e.succeeded then .succeeded else .failed

/-- Whether a migration has ended. -/
def isTerminal (m : Migration) : Bool :=
  m.ending.isSome

/-- What a caller is told. -/
def snapshot (m : Migration) : Snapshot :=
  { id := m.id
    phase := m.phase
    message := (m.ending.map (·.message)).getD ""
    counters := m.counters }

/-- Whether both counters are at the target. -/
def isComplete (m : Migration) : Bool :=
  m.counters = ⟨m.goal.replicas, m.goal.replicas⟩

/-- The time since the start. -/
def elapsed (m : Migration) (now : Nat) : Nat :=
  now - m.started

/-- Whether more time has passed than the goal allows. -/
def timedOut (m : Migration) (now : Nat) : Bool :=
  m.goal.timeout.any (· < m.elapsed now)

/-- Whether a migration has an object as its source or its destination. -/
def names (m : Migration) (r : ResourceRef) : Bool :=
  m.src = r ∨ m.dst = r

/-- Count moved replicas, up to the target. -/
def advance (m : Migration) (src dst : Int) : Migration :=
  { m with
    counters :=
      ⟨min (m.counters.src + max src 0) m.goal.replicas,
       min (m.counters.dst + max dst 0) m.goal.replicas⟩ }

/-- Count replicas moved on one side. -/
def advanceSide (m : Migration) (side : Side) (amount : Int) : Migration :=
  match side with
  | .src => m.advance amount 0
  | .dst => m.advance 0 amount

/-- End a migration, unless it has ended before. -/
def finish (m : Migration) (ending : Ending) : Migration :=
  { m with ending := some (m.ending.getD ending) }

/-- Record the generation that a write of one side reached. -/
def recordGeneration (m : Migration) (side : Side) (generation : Int) : Migration :=
  { m with generations := m.generations.record side generation }

/-- Set the number of writes that failed since the last one that landed. -/
def withWriteFailures (m : Migration) (count : Nat) : Migration :=
  { m with writeFailures := count }

end Migration

end Handover
