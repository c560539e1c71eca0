import Handover.Platform

/-!
# Simulated controllers

A controller follows the objects of one kind and, some time after an object has changed, reports it
as observed and fully available. It is busy with one object at a time. When it has missed events it
settles every object of its kind.
-/

namespace Handover

/-- A simulated controller; `asleep` holds the object it will settle, and when. -/
structure Controller where
  kind : WorkloadKind
  receiver : Receiver
  delay : Nat
  asleep : Option (Nat × ResourceRef)

namespace Controller

/-- A controller that starts now. -/
def start (p : Platform) (delay : Nat) (kind : WorkloadKind) : Controller :=
  ⟨kind, p.watch kind, delay, none⟩

/-- Whether an object awaits its controller. -/
def isStale (p : Platform) (r : ResourceRef) : Bool :=
  (p.object? r).any fun w => ¬ w.isObserved ∨ ¬ w.isFullyAvailable

/-- React to an event: settle the object at once, or after the delay. -/
def onEvent (now : Nat) (e : Event) (c : Controller) (p : Platform) : Controller × Platform :=
  if e.change = .deleted ∨ ¬ isStale p e.object.ref then (c, p)
  else if c.delay = 0 then (c, (p.settle e.object.ref).2)
  else ({ c with asleep := some (now + c.delay, e.object.ref) }, p)

/-- One step of a controller, if it can take one now. -/
def step? (now : Nat) (c : Controller) (p : Platform) : Option (Controller × Platform) :=
  match c.asleep with
  | some (due, r) =>
    if due ≤ now then some ({ c with asleep := none }, (p.settle r).2) else none
  | none =>
    match p.receive c.receiver with
    | .nothingYet | .closed => none
    | .event e rest => some (onEvent now e { c with receiver := rest } p)
    | .lagged _ rest => some ({ c with receiver := rest }, (p.settleKind c.kind).2)

/-- The time for which a controller waits. -/
def nextDue? (c : Controller) : Option Nat :=
  c.asleep.map Prod.fst

/-- One step of the first controller that can take one. -/
def stepFirst? (now : Nat) : List Controller → Platform → Option (List Controller × Platform)
  | [], _ => none
  | c :: rest, p =>
    match c.step? now p with
    | some (c, p) => some (c :: rest, p)
    | none => (stepFirst? now rest p).map fun (rest, p) => (c :: rest, p)

end Controller

end Handover
