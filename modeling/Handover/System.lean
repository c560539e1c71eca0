import Handover.Clockwork
import Handover.Controller
import Handover.Migrator
import Handover.Poll

/-!
# The system

A system is a migrator at work on a platform, with simulated controllers and a clock. Its background
work is what the engine and the controllers can do next; `System.perform` does one such thing and
says nothing about the order. Everything else that happens to a system is an operation from outside:
submitting, and whatever others do to the platform.
-/

namespace Handover

/-- A migrator on a platform with controllers, and a supply of identifiers. -/
structure System where
  now : Nat
  platform : Platform
  controllers : List Controller
  migrator : Migrator
  nextId : MigrationId

/-- One piece of a system's background work. -/
inductive Work where
  | engine (a : Activity)
  | controller (index : Nat)
  deriving DecidableEq

namespace System

/-- A system with an empty platform and no controllers. -/
def start (settings : Settings) (capacity : Nat) (firstId : MigrationId) : System :=
  { now := 0
    platform := .empty capacity
    controllers := []
    migrator := .start settings
    nextId := firstId }

/-- Do a piece of background work, if it can be done now. -/
def perform (y : System) : Work → Option System
  | .engine a =>
    (y.migrator.engine.perform Platform.client y.now a y.platform).map fun (engine, platform) =>
      { y with migrator := { y.migrator with engine }, platform }
  | .controller index => do
    let c ← y.controllers[index]?
    let (c, platform) ← c.step? y.now y.platform
    return { y with controllers := y.controllers.set index c, platform }

/-- The pieces of background work that may be possible now. -/
def works (y : System) : List Work :=
  y.migrator.engine.activities.map .engine ++ (List.range y.controllers.length).map .controller

/-- The time for which a list of controllers waits. -/
def controllersDue? (controllers : List Controller) : Option Nat :=
  (controllers.filterMap (·.nextDue?)).min?

/-- The earlier of two times. -/
def earlier : Option Nat → Option Nat → Option Nat
  | some a, some b => some (min a b)
  | some a, none => some a
  | none, b => b

/-- A measure of the controllers' work: objects to settle, and events nobody has read. -/
def controllerWeight (controllers : List Controller) (p : Platform) : Nat :=
  controllers.length * (p.logs.size + p.objects.size + 1)

/-- A bound on the steps of background work, of a number of parties each of which may react to the
others. -/
def boundOf (weight : Nat) : Nat :=
  let n := weight + 8
  n * n * n

instance : Clockwork System where
  now := System.now
  setNow now y := { y with now }
  step? y := y.works.findSome? y.perform
  nextDue? y := earlier y.migrator.engine.queue.nextDue? (controllersDue? y.controllers)
  bound y :=
    boundOf (y.migrator.engine.weight +
      y.migrator.engine.subscriptions.length * y.platform.logs.size +
      controllerWeight y.controllers y.platform)

/-! ## Operations from outside -/

/-- Submit a migration. -/
def submit (y : System) (src dst : ResourceRef) (request : Request) :
    Except MigrationError Snapshot × System :=
  let (answer, migrator, platform) :=
    y.migrator.submit Platform.client y.now y.nextId src dst request y.platform
  (answer, { y with migrator, platform, nextId := y.nextId.next })

/-- Create the clone set of a deployment. -/
def create (y : System) (src dst : ResourceRef) (copyReplicas : Bool) :
    Except MigrationError Workload × System :=
  let (answer, platform) := y.migrator.create Platform.client src dst copyReplicas y.platform
  (answer, { y with platform })

/-- Change the platform from outside. -/
def onPlatform (y : System) (f : Platform → Platform) : System :=
  { y with platform := f y.platform }

/-- Start controllers for some kinds. -/
def simulate (y : System) (kinds : List WorkloadKind) (delay : Nat) : System :=
  { y with controllers := kinds.map (Controller.start y.platform delay) }

/-- Wait for the end of a migration. -/
def poll (y : System) (p : Polling) : Polled System :=
  p.run (·.migrator.query p.id) (fun y => Clockwork.moveTo (y.now + p.period) y) y

/-- Stop the migrator and wait until its workers and subscriptions have come to their end. -/
def shutdown (y : System) : System :=
  let y := { y with migrator := y.migrator.requestStop }
  let y := if y.migrator.isStopped then y else Clockwork.run y
  { y with migrator := y.migrator.dismiss }

end System

end Handover
