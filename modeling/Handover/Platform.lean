import Handover.Error
import Handover.Platform.Watch
import Handover.Table

/-!
# The platform

A platform that stores workload objects. Every accepted change gives its object the next resource
version, which is never used again, and writes an event. An update carries the version it is based
on and is refused when the object has changed since. The generation of an object counts the changes
of its specification.
-/

namespace Handover

/-- What becomes of the pods of a deleted object. -/
inductive Propagation where
  | orphan
  | background
  | foreground
  deriving DecidableEq

namespace Propagation

/-- Every policy. -/
def all : List Propagation :=
  [.orphan, .background, .foreground]

/-- The name of a policy. -/
def label : Propagation → String
  | .orphan => "Orphan"
  | .background => "Background"
  | .foreground => "Foreground"

/-- The policy with this name. -/
def ofLabel? (label : String) : Option Propagation :=
  all.find? (·.label = label)

end Propagation

/-- A platform: the stored objects, the next resource version, the events of each kind and how many
of them are retained, the failures that the next updates meet, and the deletions so far. -/
structure Platform where
  objects : Table ResourceRef Workload
  nextVersion : Nat
  logs : Logs
  capacity : Nat
  failures : List PlatformError
  deletions : List (ResourceRef × Propagation)

namespace Platform

/-- The number of events retained where nothing else is said. -/
def defaultCapacity : Nat :=
  1024

/-- A platform without objects that retains at least `capacity` events of each kind; the number
retained is a power of two. -/
def empty (capacity : Nat) : Platform :=
  { objects := .empty
    nextVersion := 1
    logs := .const #[]
    capacity := (max capacity 1).nextPowerOfTwo
    failures := []
    deletions := [] }

instance : Inhabited Platform :=
  ⟨empty defaultCapacity⟩

/-- The object stored under a reference. -/
def object? (p : Platform) (r : ResourceRef) : Option Workload :=
  p.objects.get? r

/-- Store an object under its reference and write an event; the next version is used up. -/
def store (p : Platform) (change : Change) (w : Workload) : Platform :=
  { p with
    objects := p.objects.insert w.ref w
    nextVersion := p.nextVersion + 1
    logs := p.logs.emit change w }

/-! ## Operations of an operator -/

/-- Put an object on the platform as it is, in place of the one with its reference. Its generation
is at least one. -/
def put (p : Platform) (w : Workload) : Workload × Platform :=
  let w := w.stamped (max w.metadata.generation 1) p.nextVersion
  (w, p.store (if p.objects.contains w.ref then .modified else .added) w)

/-- Replace the status of an object. -/
def setStatus (p : Platform) (r : ResourceRef) (status : Status) :
    Except PlatformError Workload × Platform :=
  match p.object? r with
  | none => (.error (.notFound r), p)
  | some w =>
    let w := (w.withStatus status).stamped w.metadata.generation p.nextVersion
    (.ok w, p.store .modified w)

/-- Report an object as observed and fully available; answers whether its status changed. -/
def settle (p : Platform) (r : ResourceRef) : Bool × Platform :=
  match p.object? r with
  | none => (false, p)
  | some w =>
    if w.status = w.settledStatus then (false, p)
    else (true, (p.setStatus r w.settledStatus).2)

/-- Settle some objects in turn; answers how many of them changed. -/
def settleEach (p : Platform) : List ResourceRef → Nat × Platform
  | [] => (0, p)
  | r :: rest =>
    let (changed, p) := p.settle r
    let (count, p) := p.settleEach rest
    (count + changed.toNat, p)

/-- The references of the stored objects of a kind. -/
def refsOfKind (p : Platform) (kind : WorkloadKind) : List ResourceRef :=
  (p.objects.entries.filter fun e => e.2.kind = kind).map Prod.fst

/-- Settle every object of a kind. -/
def settleKind (p : Platform) (kind : WorkloadKind) : Nat × Platform :=
  p.settleEach (p.refsOfKind kind)

/-- Settle the objects of some kinds, one kind after the other. -/
def settleKinds (p : Platform) : List WorkloadKind → Nat × Platform
  | [] => (0, p)
  | kind :: rest =>
    let (first, p) := p.settleKind kind
    let (others, p) := p.settleKinds rest
    (first + others, p)

/-- Settle every object. -/
def settleAll (p : Platform) : Nat × Platform :=
  p.settleKinds WorkloadKind.all

/-- Let the next `count` updates fail. -/
def failNextUpdates (p : Platform) (e : PlatformError) (count : Nat) : Platform :=
  { p with failures := p.failures ++ List.replicate count e }

/-! ## Operations of a client -/

/-- Read an object. -/
def get (p : Platform) (r : ResourceRef) : Except PlatformError Workload :=
  match p.object? r with
  | none => .error (.notFound r)
  | some w => .ok w

/-- Create an object that does not exist yet, of generation one and without status. -/
def create (p : Platform) (w : Workload) : Except PlatformError Workload × Platform :=
  if w.metadata.name.isEmpty then (.error (.invalid (w.kind.name ++ " requires a name")), p)
  else if p.objects.contains w.ref then (.error (.alreadyExists w.ref), p)
  else
    let w := (w.withStatus {}).stamped 1 p.nextVersion
    (.ok w, p.store .added w)

/-- Replace an object, given the version that the replacement is based on. The status stays, and
the generation becomes the next one if the specification changes. -/
def replace (p : Platform) (w : Workload) : Except PlatformError Workload × Platform :=
  match p.object? w.ref with
  | none => (.error (.notFound w.ref), p)
  | some current =>
    if current.metadata.resourceVersion ≠ w.metadata.resourceVersion then
      (.error (.conflict w.ref w.metadata.resourceVersion current.metadata.resourceVersion), p)
    else
      let generation :=
        if w.spec.agrees current.spec then current.metadata.generation
        else current.nextGeneration
      let w := (w.withStatus current.status).stamped generation p.nextVersion
      (.ok w, p.store .modified w)

/-- Update an object, unless a failure awaits the next update. -/
def update (p : Platform) (w : Workload) : Except PlatformError Workload × Platform :=
  match p.failures with
  | e :: rest => (.error e, { p with failures := rest })
  | [] => p.replace w

/-- Delete an object. -/
def delete (p : Platform) (r : ResourceRef) (propagation : Propagation) :
    Except PlatformError Unit × Platform :=
  match p.object? r with
  | none => (.error (.notFound r), p)
  | some w =>
    (.ok (),
      { p with
        objects := p.objects.erase r
        deletions := p.deletions ++ [(r, propagation)]
        logs := p.logs.emit .deleted w })

/-- Follow the events of a kind from now on. -/
def watch (p : Platform) (kind : WorkloadKind) : Receiver :=
  .following kind (p.logs.get kind).size

/-- The next event of a receiver. -/
def receive (p : Platform) (r : Receiver) : Delivery :=
  r.next p.capacity p.logs

end Platform

end Handover
