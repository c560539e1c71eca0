import Handover.Client
import Handover.Convert
import Handover.Registry

/-!
# Migrations in one shot

Daemon sets and stateful sets change hands at once: the destination is created from the converted
source, then the source is deleted and its pods are left for the destination to adopt. Nothing is
registered unless every call succeeds. A deployment's clone set can be created the same way, without
moving any replicas.
-/

namespace Handover

namespace OneShot

variable {σ : Type}

/-- An error of creating a destination. -/
def creationError : PlatformError → MigrationError
  | .alreadyExists r => .destinationExists r
  | e => .platform e

/-- Check that a destination does not exist yet. -/
def ensureAbsent (client : Client σ) (dst : ResourceRef) (s : σ) :
    Except MigrationError Unit × σ :=
  match client.get dst s with
  | (.ok _, s) => (.error (.destinationExists dst), s)
  | (.error (.notFound _), s) => (.ok (), s)
  | (.error e, s) => (.error (.platform e), s)

/-- Give an object the namespace of a reference. -/
def moveTo (dst : ResourceRef) (w : Workload) : Workload :=
  { w with metadata := { w.metadata with ns := dst.ns } }

/-- The destination made from a source: it starts without replicas unless they are copied, and a
daemon set has no replica count at all. -/
def destination (pair : Pair) (source : Workload) (dst : ResourceRef) (copyReplicas : Bool) :
    Workload :=
  let w := moveTo dst (source.convert pair dst.name)
  if pair = .daemonSetToAdvanced ∨ copyReplicas then w else w.withReplicas (some 0)

/-- Read a source whose destination does not exist yet. -/
def readSource (client : Client σ) (src dst : ResourceRef) (s : σ) :
    Except MigrationError Workload × σ :=
  match client.get src s with
  | (.error e, s) => (.error (.platform e), s)
  | (.ok source, s) =>
    match ensureAbsent client dst s with
    | (.error e, s) => (.error e, s)
    | (.ok (), s) => (.ok source, s)

/-- Create an object as the destination of a migration. -/
def createObject (client : Client σ) (w : Workload) (s : σ) : Except MigrationError Workload × σ :=
  match client.create w s with
  | (.error e, s) => (.error (creationError e), s)
  | (.ok created, s) => (.ok created, s)

/-- Create the destination, then delete the source; answers what was created. -/
def replaceSource (client : Client σ) (src : ResourceRef) (w : Workload) (s : σ) :
    Except MigrationError Workload × σ :=
  match createObject client w s with
  | (.error e, s) => (.error e, s)
  | (.ok created, s) =>
    match client.delete src .orphan s with
    | (.error e, s) => (.error (.platform e), s)
    | (.ok (), s) => (.ok created, s)

/-- The platform's part of a migration in one shot; answers what was created. -/
def transfer (client : Client σ) (pair : Pair) (src dst : ResourceRef) (copyReplicas : Bool)
    (s : σ) : Except MigrationError Workload × σ :=
  match readSource client src dst s with
  | (.error e, s) => (.error e, s)
  | (.ok source, s) =>
    match pair.strategy with
    | .boundedSurge => (.error (.invalidOptions (.incremental src)), s)
    | .oneShot => replaceSource client src (destination pair source dst copyReplicas) s

/-- Check that neither object of a migration is claimed. -/
def ensureBothFree (g : Registry) (src dst : ResourceRef) : Except MigrationError Unit :=
  match g.ensureFree src with
  | .error e => .error e
  | .ok () => g.ensureFree dst

/-- Migrate in one shot. -/
def migrate (client : Client σ) (pair : Pair) (src dst : ResourceRef) (copyReplicas : Bool)
    (id : MigrationId) (now : Nat) (g : Registry) (s : σ) :
    Except MigrationError Snapshot × Registry × σ :=
  match ensureBothFree g src dst with
  | .error e => (.error e, g, s)
  | .ok () =>
    match transfer client pair src dst copyReplicas s with
    | (.error e, s) => (.error e, g, s)
    | (.ok created, s) =>
      let m := Migration.completed id src dst pair created.declared now
      (.ok m.snapshot, g.register m, s)

/-- Create the clone set of a deployment, without moving any replicas. -/
def createDestination (client : Client σ) (src dst : ResourceRef) (copyReplicas : Bool) (s : σ) :
    Except MigrationError Workload × σ :=
  match Pair.ofRefs? src dst with
  | some .deploymentToCloneSet =>
    match readSource client src dst s with
    | (.error e, s) => (.error e, s)
    | (.ok source, s) =>
      createObject client (destination .deploymentToCloneSet source dst copyReplicas) s
  | _ => (.error (.unsupportedPair src dst), s)

end OneShot

end Handover
