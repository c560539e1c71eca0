import Handover.Client

/-!
# Clients with planned trouble

A `Rehearsal` is a platform together with a plan for each client call. A planned call may fail
before it reaches the platform, may be followed by a status report on some object, and a planned
watch may be closed from the start. Once its plan is used up, a call is passed on as it is.
-/

namespace Handover

/-- What happens to one call. -/
inductive CallPlan where
  | pass
  | fail (e : PlatformError)
  | touch (r : ResourceRef)
  | closed

/-- The calls for which there is a plan. -/
inductive CallMethod where
  | get
  | create
  | update
  | delete
  | watch
  deriving DecidableEq

/-- The call with this name. -/
def CallMethod.ofLabel? : String → Option CallMethod
  | "get" => some .get
  | "create" => some .create
  | "update" => some .update
  | "delete" => some .delete
  | "watch" => some .watch
  | _ => none

/-- A platform with plans for the calls to come. -/
structure Rehearsal where
  platform : Platform
  plans : CallMethod → List CallPlan

namespace Rehearsal

/-- A platform without plans. -/
def ofPlatform (p : Platform) : Rehearsal :=
  ⟨p, fun _ => []⟩

/-- Plan further calls of a method. -/
def plan (s : Rehearsal) (method : CallMethod) (calls : List CallPlan) : Rehearsal :=
  { s with plans := fun m => if m = method then s.plans m ++ calls else s.plans m }

/-- The plan of the next call of a method, which is used up. -/
def nextPlan (s : Rehearsal) (method : CallMethod) : CallPlan × Rehearsal :=
  match s.plans method with
  | [] => (.pass, s)
  | c :: rest => (c, { s with plans := fun m => if m = method then rest else s.plans m })

/-- Report the status of an object once more, as it is. -/
def touch (p : Platform) (r : ResourceRef) : Platform :=
  match p.object? r with
  | none => p
  | some w => (p.setStatus r w.status).2

/-- Carry out a call of a method as planned. -/
def call {α : Type} (method : CallMethod)
    (operation : Platform → Except PlatformError α × Platform) (s : Rehearsal) :
    Except PlatformError α × Rehearsal :=
  let (planned, s) := s.nextPlan method
  match planned with
  | .fail e => (.error e, s)
  | .touch r =>
    let (answer, p) := operation s.platform
    (answer, { s with platform := touch p r })
  | .pass | .closed =>
    let (answer, p) := operation s.platform
    (answer, { s with platform := p })

/-- Carry out a watch as planned. -/
def watch (kind : WorkloadKind) (s : Rehearsal) : Except PlatformError Receiver × Rehearsal :=
  match (s.nextPlan .watch).1 with
  | .closed => (.ok .closed, (s.nextPlan .watch).2)
  | _ => call .watch (fun p => (.ok (p.watch kind), p)) s

/-- The client that follows the plans. -/
def client : Client Rehearsal where
  get r := call .get fun p => (p.get r, p)
  create w := call .create (·.create w)
  update w := call .update (·.update w)
  delete r propagation := call .delete (·.delete r propagation)
  watch := watch
  receive r s := s.platform.receive r

/-- Change the platform without going through the client. -/
def onPlatform (s : Rehearsal) (f : Platform → Platform) : Rehearsal :=
  { s with platform := f s.platform }

end Rehearsal

end Handover
