import Handover.Engine
import Handover.OneShot

/-!
# The migrator

A migrator is an engine with settings and an owner's view: migrations are submitted to it and
queried from it, destinations are created through it, and it is told to stop. A submitted migration
is either carried out in one shot, or claimed, watched and left to the engine.
-/

namespace Handover

/-- An engine with settings. -/
structure Migrator where
  settings : Settings
  engine : Engine

namespace Migrator

variable {σ : Type}

/-- The name of a migrator's queue. -/
def queueName : String :=
  "cloneset-migration"

/-- A migrator whose workers start to look for work. -/
def start (settings : Settings) : Migrator :=
  ⟨settings, (Engine.start queueName settings).hire settings.workers⟩

/-- Whether a migrator has been told to stop. -/
def isShuttingDown (m : Migrator) : Bool :=
  m.engine.queue.shuttingDown

/-- Change the registry. -/
def withRegistry (m : Migrator) (registry : Registry) : Migrator :=
  { m with engine := { m.engine with registry } }

/-- What a caller is told about a migration. -/
def query (m : Migrator) (id : MigrationId) : Except MigrationError Snapshot :=
  m.engine.registry.query id

/-- Evict finished migrations. -/
def prune (now : Nat) (m : Migrator) : Migrator :=
  m.withRegistry (m.engine.registry.prune m.settings.retention now).2

/-- The goal of a request and the generations it starts from, as the two objects say. -/
def appraise (client : Client σ) (src dst : ResourceRef) (request : Request) (s : σ) :
    Except MigrationError (Goal × Generations) × σ :=
  match client.get src s with
  | (.error e, s) => (.error (.platform e), s)
  | (.ok source, s) =>
    match client.get dst s with
    | (.error e, s) => (.error (.platform e), s)
    | (.ok destination, s) =>
      match request.resolve source.declared with
      | .error fault => (.error (.invalidOptions fault), s)
      | .ok goal =>
        (.ok (goal, ⟨source.metadata.generation, destination.metadata.generation⟩), s)

/-- Watch a kind, unless it is being watched. -/
def watch (client : Client σ) (kind : WorkloadKind) (e : Engine) (s : σ) :
    Except PlatformError Unit × Engine × σ :=
  if e.registry.isWatched kind then (.ok (), e, s)
  else
    match e.subscribe client kind s with
    | (.error err, e, s) => (.error err, e, s)
    | (.ok (), e, s) => (.ok (), { e with registry := e.registry.markWatched kind }, s)

/-- Watch both kinds of a pair, the source's first. -/
def watchPair (client : Client σ) (pair : Pair) (e : Engine) (s : σ) :
    Except PlatformError Unit × Engine × σ :=
  match watch client pair.srcKind e s with
  | (.error err, e, s) => (.error err, e, s)
  | (.ok (), e, s) => watch client pair.dstKind e s

/-- Register a migration and make it pending. -/
def enroll (m : Migration) (e : Engine) : Engine :=
  { e with registry := e.registry.register m, queue := e.queue.add m.id }

/-- Claim the two objects of a migration, watch their kinds and leave it to the engine. -/
def claim (client : Client σ) (m : Migration) (e : Engine) (s : σ) :
    Except MigrationError Snapshot × Engine × σ :=
  match OneShot.ensureBothFree e.registry m.src m.dst with
  | .error err => (.error err, e, s)
  | .ok () =>
    match watchPair client m.pair e s with
    | (.error err, e, s) => (.error (.platform err), e, s)
    | (.ok (), e, s) => (.ok m.snapshot, enroll m e, s)

/-- Submit a migration under a surge bound. -/
def submitIncremental (client : Client σ) (now : Nat) (id : MigrationId) (pair : Pair)
    (src dst : ResourceRef) (request : Request) (e : Engine) (s : σ) :
    Except MigrationError Snapshot × Engine × σ :=
  match appraise client src dst request s with
  | (.error err, s) => (.error err, e, s)
  | (.ok (goal, baseline), s) => claim client (.start id src dst pair goal baseline now) e s

/-- Submit a migration that is valid and whose pair is known. -/
def submitPair (client : Client σ) (now : Nat) (id : MigrationId) (pair : Pair)
    (src dst : ResourceRef) (request : Request) (m : Migrator) (s : σ) :
    Except MigrationError Snapshot × Migrator × σ :=
  match pair.strategy with
  | .boundedSurge =>
    let (answer, engine, s) := submitIncremental client now id pair src dst request m.engine s
    (answer, { m with engine }, s)
  | .oneShot =>
    let (answer, registry, s) :=
      OneShot.migrate client pair src dst request.copyReplicas id now m.engine.registry s
    (answer, m.withRegistry registry, s)

/-- Submit a migration under a new identifier. -/
def submit (client : Client σ) (now : Nat) (id : MigrationId) (src dst : ResourceRef)
    (request : Request) (m : Migrator) (s : σ) : Except MigrationError Snapshot × Migrator × σ :=
  if m.isShuttingDown then (.error .shuttingDown, m, s)
  else
    let m := m.prune now
    match request.validate, Pair.ofRefs? src dst with
    | .error fault, _ => (.error (.invalidOptions fault), m, s)
    | .ok (), none => (.error (.unsupportedPair src dst), m, s)
    | .ok (), some pair => m.submitPair client now id pair src dst request s

/-- Create the clone set of a deployment. -/
def create (client : Client σ) (src dst : ResourceRef) (copyReplicas : Bool) (m : Migrator)
    (s : σ) : Except MigrationError Workload × σ :=
  if m.isShuttingDown then (.error .shuttingDown, s)
  else OneShot.createDestination client src dst copyReplicas s

/-- Tell a migrator to stop. -/
def requestStop (m : Migrator) : Migrator :=
  { m with engine := m.engine.requestStop }

/-- Whether everything a migrator started has come to its end. -/
def isStopped (m : Migrator) : Bool :=
  m.engine.workersGone && m.engine.subscriptionsEnded

/-- Stop counting what a migrator started. -/
def dismiss (m : Migrator) : Migrator :=
  { m with engine := m.engine.dismissWorkers.dismissSubscriptions }

/-- A migrator shown with its settings, the number of its migrations, its queue and its
subscriptions; `quote` writes names. -/
def describe (quote : String → String) (m : Migrator) : String :=
  "Migrator \x7b config: " ++ m.settings.describe ++ ", tasks: " ++
    toString m.engine.registry.migrations.size ++ ", queue: " ++ m.engine.queue.describe quote ++
    ", subscriptions: " ++ Subscription.describe m.engine.subscriptions ++ ", .. \x7d"

end Migrator

end Handover
