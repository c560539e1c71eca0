import Handover.Client.Planned
import Handover.System

/-!
# The bench

A bench is a platform with planned trouble on which every part can be operated by hand: one engine
whose passes, queue, subscriptions and workers are started one by one, a migrator beside it, and
controllers, all on one clock. Migrations may be kept off the registry; those that were evicted stay
at hand.
-/

namespace Handover

/-- Parts of a system that are operated by hand. -/
structure Bench where
  now : Nat
  site : Rehearsal
  settings : Settings
  engine : Engine
  migrator : Option Migrator
  controllers : List Controller
  loose : Table MigrationId Migration
  receivers : Table String Receiver
  nextId : MigrationId

namespace Bench

/-- The name of a bench's queue. -/
def queueName : String :=
  "session"

/-- A bench on which nothing runs. -/
def start (settings : Settings) (capacity : Nat) (firstId : MigrationId) : Bench :=
  { now := 0
    site := .ofPlatform (.empty capacity)
    settings
    engine := .start queueName settings
    migrator := none
    controllers := []
    loose := .empty
    receivers := .empty
    nextId := firstId }

/-! ## Background work -/

/-- One step of the bench's own engine. -/
def stepEngine? (b : Bench) : Option Bench :=
  (b.engine.step? Rehearsal.client b.now b.site).map fun (engine, site) => { b with engine, site }

/-- One step of the migrator's engine. -/
def stepMigrator? (b : Bench) : Option Bench := do
  let m ← b.migrator
  let (engine, site) ← m.engine.step? Rehearsal.client b.now b.site
  return { b with migrator := some { m with engine }, site }

/-- One step of a controller. -/
def stepControllers? (b : Bench) : Option Bench :=
  (Controller.stepFirst? b.now b.controllers b.site.platform).map fun (controllers, p) =>
    { b with controllers, site := b.site.onPlatform fun _ => p }

/-- The engines of a bench. -/
def engines (b : Bench) : List Engine :=
  b.engine :: (b.migrator.map (·.engine)).toList

/-- The number of calls for which there is a plan. -/
def plannedCalls (s : Rehearsal) : Nat :=
  (s.plans .get).length + (s.plans .create).length + (s.plans .update).length +
    (s.plans .delete).length + (s.plans .watch).length

instance : Clockwork Bench where
  now := Bench.now
  setNow now b := { b with now }
  step? b := b.stepEngine? <|> b.stepMigrator? <|> b.stepControllers?
  nextDue? b :=
    (b.engines.map (·.queue.nextDue?)).foldl System.earlier (System.controllersDue? b.controllers)
  bound b :=
    let p := b.site.platform
    let weight := b.engines.foldl
      (fun n e => n + e.weight + e.subscriptions.length * p.logs.size) 0
    System.boundOf (weight + System.controllerWeight b.controllers p + plannedCalls b.site)

/-! ## The platform and its client -/

/-- Make a client call. -/
def call {α : Type} (b : Bench) (f : Rehearsal → Except PlatformError α × Rehearsal) :
    Except PlatformError α × Bench :=
  let (answer, site) := f b.site
  (answer, { b with site })

/-- Operate the platform directly. -/
def operate {α : Type} (b : Bench) (f : Platform → α × Platform) : α × Bench :=
  let (answer, p) := f b.site.platform
  (answer, { b with site := b.site.onPlatform fun _ => p })

/-- The object stored under a reference. -/
def object? (b : Bench) (r : ResourceRef) : Option Workload :=
  b.site.platform.object? r

/-- Put an otherwise empty object on the platform and settle it; answers whether that changed it,
and its resource version. -/
def seed (b : Bench) (r : ResourceRef) (kind : WorkloadKind) (replicas : Option Int) :
    (Bool × Nat) × Bench :=
  b.operate fun p =>
    let (w, p) := p.put ((Workload.named kind r.ns r.name).withReplicas replicas)
    let (changed, p) := p.settle w.ref
    ((changed, ((p.object? w.ref).map (·.metadata.resourceVersion)).getD 0), p)

/-- Update an object as it is stored now, after a change. -/
def edit (b : Bench) (r : ResourceRef) (change : Workload → Workload) :
    Except PlatformError Workload × Bench :=
  match b.object? r with
  | none => (.error (.notFound r), b)
  | some w => b.call (Rehearsal.client.update (change w))

/-- Follow the events of a kind under a name. -/
def watch (b : Bench) (name : String) (kind : WorkloadKind) : Except PlatformError Unit × Bench :=
  match b.call (Rehearsal.client.watch kind) with
  | (.error e, b) => (.error e, b)
  | (.ok receiver, b) => (.ok (), { b with receivers := b.receivers.insert name receiver })

/-- Something a receiver got: an event, or the number of events it missed. -/
abbrev Received :=
  Event ⊕ Nat

/-- All that a receiver gets at once, and the receiver after that. -/
def drain (p : Platform) : Nat → Receiver → List Received × Receiver
  | 0, r => ([], r)
  | fuel + 1, r =>
    match p.receive r with
    | .nothingYet | .closed => ([], r)
    | .event e rest =>
      let (received, r) := drain p fuel rest
      (.inl e :: received, r)
    | .lagged missed rest =>
      let (received, r) := drain p fuel rest
      (.inr missed :: received, r)

/-- All that the receiver of this name gets at once. -/
def events (b : Bench) (name : String) : Option (List Received × Bench) := do
  let r ← b.receivers.get? name
  let p := b.site.platform
  let (received, r) := drain p (p.logs.size + 2) r
  return (received, { b with receivers := b.receivers.insert name r })

/-! ## Migrations and the registry -/

/-- A migration, registered or not. -/
def migration? (b : Bench) (id : MigrationId) : Option Migration :=
  b.engine.registry.get? id <|> b.loose.get? id

/-- Change the registry. -/
def withRegistry (b : Bench) (registry : Registry) : Bench :=
  { b with engine := { b.engine with registry } }

/-- Change a migration wherever it is. -/
def modifyMigration (b : Bench) (id : MigrationId) (f : Migration → Migration) : Bench :=
  { b.withRegistry (b.engine.registry.modify id f) with loose := b.loose.modify id f }

/-- Register a migration, or keep it off the registry. -/
def hold (b : Bench) (m : Migration) (register : Bool) : Bench :=
  let b := { b with nextId := m.id.next }
  if register then b.withRegistry (b.engine.registry.register m)
  else { b with loose := b.loose.insert m.id m }

/-- The generation of an object, zero if it does not exist. -/
def generation (b : Bench) (r : ResourceRef) : Int :=
  ((b.object? r).map (·.metadata.generation)).getD 0

/-- Start a migration; unless told otherwise, from the current generations of its objects. -/
def begin (b : Bench) (src dst : ResourceRef) (pair : Pair) (goal : Goal)
    (baseline : Option Generations) (register : Bool) : Snapshot × Bench :=
  let baseline := baseline.getD ⟨b.generation src, b.generation dst⟩
  let m := Migration.start b.nextId src dst pair goal baseline b.now
  (m.snapshot, b.hold m register)

/-- Add a migration that has succeeded at once. -/
def addCompleted (b : Bench) (src dst : ResourceRef) (pair : Pair) (replicas : Int)
    (register : Bool) : Snapshot × Bench :=
  let m := Migration.completed b.nextId src dst pair replicas b.now
  (m.snapshot, b.hold m register)

/-- Register a migration that is at hand. -/
def register (b : Bench) (id : MigrationId) : Bench :=
  match b.migration? id with
  | none => b
  | some m =>
    let b := { b with loose := b.loose.erase id }
    b.withRegistry (b.engine.registry.register m)

/-- End a migration without releasing its objects; answers whether it was executing. -/
def finishMigration (b : Bench) (id : MigrationId) (succeeded : Bool) (message : String) :
    Bool × Bench :=
  let executing := (b.migration? id).any fun m => ¬ m.isTerminal
  (executing, b.modifyMigration id (·.finish ⟨succeeded, message, b.now⟩))

/-- End a migration and release its objects; answers whether it was executing. -/
def finish (b : Bench) (id : MigrationId) (succeeded : Bool) (message : String) : Bool × Bench :=
  match b.engine.registry.get? id with
  | none => b.finishMigration id succeeded message
  | some _ =>
    let (executing, registry) := b.engine.registry.finish id ⟨succeeded, message, b.now⟩
    (executing, b.withRegistry registry)

/-- Evict finished migrations, which stay at hand; answers how many. -/
def prune (b : Bench) (policy : Retention) (offset : Int) : Nat × Bench :=
  let now := (b.now + offset).toNat
  let gone := (b.engine.registry.evicted policy now).filterMap b.engine.registry.get?
  let (count, registry) := b.engine.registry.prune policy now
  (count, { b.withRegistry registry with loose := gone.foldl (fun t m => t.insert m.id m) b.loose })

/-- Run a pass over a migration. -/
def reconcile (b : Bench) (id : MigrationId) : Except WriteError Unit × Bench :=
  let (answer, engine, site) := b.engine.reconcile Rehearsal.client b.now id b.site
  (answer, { b with engine, site })

/-- Migrate in one shot. -/
def oneShot (b : Bench) (pair : Pair) (src dst : ResourceRef) (copyReplicas : Bool) :
    Except MigrationError Snapshot × Bench :=
  let (answer, registry, site) :=
    OneShot.migrate Rehearsal.client pair src dst copyReplicas b.nextId b.now b.engine.registry
      b.site
  (answer, { b.withRegistry registry with site, nextId := b.nextId.next })

/-- Create the clone set of a deployment. -/
def createDestination (b : Bench) (src dst : ResourceRef) (copyReplicas : Bool) :
    Except MigrationError Workload × Bench :=
  let (answer, site) := OneShot.createDestination Rehearsal.client src dst copyReplicas b.site
  (answer, { b with site })

/-! ## Queue, subscriptions and workers -/

/-- Operate the queue. -/
def onQueue (b : Bench) (f : WorkQueue MigrationId → WorkQueue MigrationId) : Bench :=
  { b with engine := { b.engine with queue := f b.engine.queue } }

/-- Ask the queue for a migration once. -/
def take (b : Bench) : Handout MigrationId × Bench :=
  let (handout, queue) := b.engine.queue.take
  (handout, b.onQueue fun _ => queue)

/-- Take migrations from a queue and be done with them until there are none. -/
def drainQueue : Nat → WorkQueue MigrationId → List MigrationId × WorkQueue MigrationId
  | 0, q => ([], q)
  | fuel + 1, q =>
    match q.take with
    | (.item id, q) =>
      let (ids, q) := drainQueue fuel (q.done id)
      (id :: ids, q)
    | (_, q) => ([], q)

/-- The migrations that are pending, in order; none is afterwards. -/
def drainPending (b : Bench) : List MigrationId × Bench :=
  let q := b.engine.queue
  let (ids, queue) := drainQueue (q.pending.length + q.dirty.length + 1) q
  (ids.mergeSort fun x y => x.number ≤ y.number, b.onQueue fun _ => queue)

/-- Start a subscription. -/
def subscribe (b : Bench) (kind : WorkloadKind) : Except PlatformError Unit × Bench :=
  let (answer, engine, site) := b.engine.subscribe Rehearsal.client kind b.site
  (answer, { b with engine, site })

/-- Set the stop signal, unless nobody can set it any more. -/
def setStop (b : Bench) (raised : Bool) : Bench :=
  let s := b.engine.stop
  { b with engine := { b.engine with stop := if s.abandoned then s else { s with raised } } }

/-- Give up the means to set the stop signal. -/
def abandonStop (b : Bench) : Bench :=
  { b with engine := { b.engine with stop := { b.engine.stop with abandoned := true } } }

/-- How long to wait for something to end, in milliseconds. -/
def patience : Nat :=
  1000

/-- Wait until something has ended, but not for ever; answers whether it has. Where nothing is to be
waited for, no background work is done. -/
def await (b : Bench) (ended : Bench → Bool) : Bool × Bench :=
  if ended b then (true, b)
  else
    let b := Clockwork.run b
    if ended b then (true, b) else (false, Clockwork.advance patience b)

/-- Wait for the subscriptions to end; they are not counted any more after that. -/
def joinSubscriptions (b : Bench) : Bool × Bench :=
  let (ended, b) := b.await (·.engine.subscriptionsEnded)
  (ended, { b with engine := b.engine.dismissSubscriptions })

/-- Add workers. -/
def hire (b : Bench) (count : Nat) : Bench :=
  { b with engine := b.engine.hire count }

/-- Wait for the workers to go, if there are any; they are not counted any more after that. -/
def joinWorkers (b : Bench) : Option (Bool × Bench) :=
  if b.engine.workerCount = 0 then none
  else
    let (ended, b) := b.await (·.engine.workersGone)
    some (ended, { b with engine := b.engine.dismissWorkers })

/-! ## Controllers and the migrator -/

/-- Start controllers beside the present ones. -/
def simulate (b : Bench) (kinds : List WorkloadKind) (delay : Nat) : Bench :=
  { b with
    controllers := b.controllers ++ kinds.map (Controller.start b.site.platform delay) }

/-- Start a migrator in place of the present one. -/
def startMigrator (b : Bench) : Bench :=
  { b with migrator := some (.start b.settings) }

/-- Submit a migration to the migrator. -/
def submit (b : Bench) (m : Migrator) (src dst : ResourceRef) (request : Request) :
    Except MigrationError Snapshot × Bench :=
  let (answer, m, site) := m.submit Rehearsal.client b.now b.nextId src dst request b.site
  (answer, { b with migrator := some m, site, nextId := b.nextId.next })

/-- Create the clone set of a deployment through the migrator. -/
def create (b : Bench) (m : Migrator) (src dst : ResourceRef) (copyReplicas : Bool) :
    Except MigrationError Workload × Bench :=
  let (answer, site) := m.create Rehearsal.client src dst copyReplicas b.site
  (answer, { b with site })

/-- What the migrator tells about a migration. -/
def query (b : Bench) (id : MigrationId) : Except MigrationError Snapshot :=
  match b.migrator with
  | none => .error (.taskNotFound id)
  | some m => m.query id

/-- Wait for the end of one of the migrator's migrations. -/
def poll (b : Bench) (p : Polling) : Polled Bench :=
  p.run (·.query p.id) (fun b => Clockwork.moveTo (b.now + p.period) b) b

/-- Stop the migrator and wait for everything it started. -/
def shutdown (b : Bench) : Bench :=
  let b := { b with migrator := b.migrator.map Migrator.requestStop }
  let b := if b.migrator.all Migrator.isStopped then b else Clockwork.run b
  { b with migrator := b.migrator.map Migrator.dismiss }

end Bench

end Handover
