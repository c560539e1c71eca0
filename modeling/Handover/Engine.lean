import Handover.Pass
import Handover.Subscription

/-!
# The engine

An engine is the machinery that drives migrations forward: a registry, a queue of migrations to look
at, subscriptions that fill the queue, and workers that empty it, a pass at a time. What it can do
next is a list of activities, and `Engine.perform` does one of them; nothing is said about their
order.
-/

namespace Handover

/-- What a worker is at: looking for work, at work on a migration, or gone. -/
inductive WorkerState where
  | idle
  | holding (id : MigrationId)
  | gone
  deriving DecidableEq

/-- A worker. One that is not held any more still runs, but is not counted. -/
structure Worker where
  state : WorkerState
  held : Bool
  deriving DecidableEq

/-- Whether an engine is to stop: it was told so, or nobody is left to tell. -/
structure StopSignal where
  raised : Bool
  abandoned : Bool
  deriving DecidableEq

/-- Whether a signal means to stop. -/
def StopSignal.stopped (s : StopSignal) : Bool :=
  s.raised || s.abandoned

/-- The machinery that drives migrations forward. -/
structure Engine where
  registry : Registry
  queue : WorkQueue MigrationId
  retryLimit : Nat
  stop : StopSignal
  subscriptions : List Subscription
  workers : List Worker

/-- Something an engine can do on its own. -/
inductive Activity where
  | deliver (subscription : Nat)
  | process (worker : Nat)
  | wake (worker : Nat)
  | expire
  deriving DecidableEq

namespace Engine

variable {σ : Type}

/-- An engine without workers. -/
def start (name : String) (settings : Settings) : Engine :=
  { registry := .empty
    queue := .empty name settings.backoff
    retryLimit := settings.maxWriteRetries
    stop := ⟨false, false⟩
    subscriptions := []
    workers := [] }

/-! ## Workers -/

/-- Let workers start to look for work. -/
def enterWorkers (first : Nat) : Nat → WorkQueue MigrationId → WorkQueue MigrationId
  | 0, q => q
  | count + 1, q => enterWorkers (first + 1) count { q with wakeups := q.wakeups.enter first }

/-- Add workers, at least one; earlier ones are not counted any more. -/
def hire (count : Nat) (e : Engine) : Engine :=
  let count := max count 1
  { e with
    workers := e.workers.map ({ · with held := false }) ++ List.replicate count ⟨.idle, true⟩
    queue := enterWorkers e.workers.length count e.queue }

/-- The number of workers that are counted. -/
def workerCount (e : Engine) : Nat :=
  e.workers.countP (·.held)

/-- Set the state of a worker. -/
def setWorker (e : Engine) (worker : Nat) (state : WorkerState) : Engine :=
  { e with workers := e.workers.modify worker ({ · with state }) }

/-- What a worker does with what it got from the queue. -/
def afterHandout (e : Engine) (worker : Nat) : Handout MigrationId → Engine
  | .item id => e.setWorker worker (.holding id)
  | .shutDown => e.setWorker worker .gone
  | .nothing => e

/-- Run one pass, whoever asks for it. -/
def reconcile (client : Client σ) (now : Nat) (id : MigrationId) (e : Engine) (s : σ) :
    Except WriteError Unit × Engine × σ :=
  let (answer, registry, s) := e.registry.reconcile client e.retryLimit now id s
  (answer, { e with registry }, s)

/-- What a pass means for the queue: a failed write is tried again after a backoff, anything else
ends the backoff. -/
def afterPass (q : WorkQueue MigrationId) (now : Nat) (id : MigrationId) :
    Except WriteError Unit → WorkQueue MigrationId
  | .ok () => (q.forget id).done id
  | .error _ => (q.addRateLimited now id).done id

/-- Let a worker that holds a migration run a pass over it and look for more work. -/
def processHeld (client : Client σ) (now : Nat) (worker : Nat) (id : MigrationId) (e : Engine)
    (s : σ) : Engine × σ :=
  let (answer, e, s) := e.reconcile client now id s
  let q := afterPass e.queue now id answer
  let queue := { q with wakeups := q.wakeups.enter worker }
  (({ e with queue } : Engine).setWorker worker .idle, s)

/-! ## Subscriptions -/

/-- Start to follow a kind. -/
def subscribe (client : Client σ) (kind : WorkloadKind) (e : Engine) (s : σ) :
    Except PlatformError Unit × Engine × σ :=
  match client.watch kind s with
  | (.error err, s) => (.error err, e, s)
  | (.ok receiver, s) =>
    (.ok (), { e with subscriptions := e.subscriptions ++ [.start kind receiver] }, s)

/-- The number of subscriptions that are counted. -/
def subscriptionCount (e : Engine) : Nat :=
  e.subscriptions.countP (·.held)

/-- Let a subscription handle its next delivery. -/
def deliver (client : Client σ) (index : Nat) (e : Engine) (s : σ) : Option Engine := do
  let b ← e.subscriptions[index]?
  let (b, queue) ← b.step? client e.stop.stopped e.registry e.queue s
  return { e with subscriptions := e.subscriptions.set index b, queue }

/-! ## Activities -/

/-- Do something, if it can be done now. -/
def perform (client : Client σ) (now : Nat) (a : Activity) (e : Engine) (s : σ) :
    Option (Engine × σ) :=
  match a with
  | .deliver index => (e.deliver client index s).map (·, s)
  | .process worker =>
    match e.workers[worker]? with
    | some ⟨.holding id, _⟩ => some (e.processHeld client now worker id s)
    | _ => none
  | .wake worker =>
    if worker ∈ e.queue.wakeups.ready then
      let (handout, queue) := e.queue.serve worker
      some ({ e with queue }.afterHandout worker handout, s)
    else none
  | .expire => (e.queue.expire? now).map fun queue => ({ e with queue }, s)

/-- The workers that hold a migration. -/
def holders (e : Engine) : List Nat :=
  e.workers.zipIdx.filterMap fun (w, n) =>
    match w.state with
    | .holding _ => some n
    | _ => none

/-- The activities that may be possible now. -/
def activities (e : Engine) : List Activity :=
  (List.range e.subscriptions.length).map .deliver ++ e.holders.map .process ++
    e.queue.wakeups.ready.map .wake ++ [.expire]

/-- Do the first thing that can be done now. -/
def step? (client : Client σ) (now : Nat) (e : Engine) (s : σ) : Option (Engine × σ) :=
  e.activities.findSome? fun a => e.perform client now a s

/-- Whether every counted worker is gone. -/
def workersGone (e : Engine) : Bool :=
  e.workers.all fun w => ¬ w.held ∨ w.state = .gone

/-- Whether every counted subscription has ended. -/
def subscriptionsEnded (e : Engine) : Bool :=
  e.subscriptions.all fun b => ¬ b.held ∨ b.ended

/-- Stop counting the workers. -/
def dismissWorkers (e : Engine) : Engine :=
  { e with workers := e.workers.map ({ · with held := false }) }

/-- Stop counting the subscriptions. -/
def dismissSubscriptions (e : Engine) : Engine :=
  { e with subscriptions := e.subscriptions.map ({ · with held := false }) }

/-- Tell an engine to stop: subscriptions end, and workers go after their current pass. -/
def requestStop (e : Engine) : Engine :=
  { e with stop := { e.stop with raised := true }, queue := e.queue.shutdown }

/-! ## The amount of work -/

/-- How many writes a migration has before it, at most. -/
def remainingWrites (m : Migration) : Nat :=
  if m.isTerminal then 0
  else (m.goal.replicas - m.counters.src).toNat + (m.goal.replicas - m.counters.dst).toNat + 1

/-- A measure of the work before an engine: writes with their retries, wake-ups, items. -/
def weight (e : Engine) : Nat :=
  e.registry.migrations.values.foldl (fun n m => n + remainingWrites m) 0 * (e.retryLimit + 2) +
    e.registry.migrations.size + e.registry.owners.size + e.queue.pending.length +
    e.queue.dirty.length + e.queue.processing.length + e.queue.delayed.length +
    e.subscriptions.length + e.workers.length + e.queue.wakeups.ready.length

end Engine

end Handover
