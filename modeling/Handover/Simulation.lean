import Handover.System

/-!
# Simulated migrations

A simulation migrates a deployment to a clone set of the same name on a platform of its own, with
controllers that react after a delay. Its report holds the final snapshot, if one was reached, and
what went wrong, if anything did: a report without an error is one of success.
-/

namespace Handover

/-- What to simulate; delays in milliseconds, the patience of the caller in seconds. -/
structure Simulation where
  ns : String
  name : String
  sourceReplicas : Int
  destinationReplicas : Int
  request : Request
  controllerDelayMs : Nat
  waitSeconds : Nat

/-- What can go wrong in a simulation. -/
inductive SimulationError where
  | creation (e : MigrationError)
  | submission (e : MigrationError)
  | waiting (e : MigrationError)
  | failed (message : String)
  deriving DecidableEq

/-- A migration error with the error that caused it, as texts. -/
def MigrationError.chain (e : MigrationError) : List String :=
  match e with
  | .platform cause => [e.message, cause.message]
  | _ => [e.message]

/-- An error with the errors that caused it, as texts, the outermost first. -/
def SimulationError.chain : SimulationError → List String
  | creation e => "failed to create CloneSet" :: e.chain
  | submission e | waiting e => e.chain
  | failed message => ["migration failed: " ++ message]

/-- What came of a simulation. -/
structure SimulationReport where
  result : Option Snapshot
  error : Option SimulationError
  deriving DecidableEq

namespace Simulation

/-- The deployment that is migrated. -/
def source (m : Simulation) : Workload :=
  (Workload.named .deployment m.ns m.name).withReplicas (some m.sourceReplicas)

/-- The reference to the clone set that the deployment is migrated to. -/
def destination (m : Simulation) : ResourceRef :=
  .of .cloneSet m.ns m.name

/-- Put an object on the platform as it is. -/
def place (w : Workload) (p : Platform) : Platform :=
  (p.put w).2

/-- Settle everything on the platform. -/
def settled (p : Platform) : Platform :=
  p.settleAll.2

/-- The system before anything is asked of the migrator. -/
def prepare (m : Simulation) (settings : Settings) (firstId : MigrationId) : System :=
  let y := System.start settings Platform.defaultCapacity firstId
  (y.onPlatform fun p => settled (place m.source p)).simulate [.deployment, .cloneSet]
    m.controllerDelayMs

/-- Give the new clone set the replicas that it is to declare at the start, and settle. -/
def equip (m : Simulation) (created : Workload) (y : System) : System :=
  y.onPlatform fun p =>
    settled (if 0 < m.destinationReplicas then
        place (created.withReplicas (some m.destinationReplicas)) p
      else p)

/-- Wait for the end of the migration with this identifier. -/
def await (m : Simulation) (id : MigrationId) (y : System) : Polled System :=
  y.poll ⟨id, y.migrator.settings.pollIntervalMs, m.waitSeconds * 1000⟩

/-- What to report of an outcome. -/
def report : Except MigrationError Snapshot → SimulationReport
  | .error e => ⟨none, some (.waiting e)⟩
  | .ok s => ⟨some s, if s.phase = .failed then some (.failed s.message) else none⟩

/-- Carry out a simulation. -/
def run (m : Simulation) (settings : Settings) (firstId : MigrationId) : SimulationReport :=
  match (m.prepare settings firstId).create m.source.ref m.destination false with
  | (.error e, _) => ⟨none, some (.creation e)⟩
  | (.ok created, y) =>
    match (m.equip created y).submit m.source.ref m.destination m.request with
    | (.error e, _) => ⟨none, some (.submission e)⟩
    | (.ok s, y) => report (m.await s.id y).outcome

end Simulation

end Handover
