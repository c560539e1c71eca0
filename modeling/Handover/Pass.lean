import Handover.Client
import Handover.IntRange
import Handover.Registry

/-!
# Passes

A pass looks at one executing migration, reads its two objects, plans a step and makes at most one
write. What came of it is a `Verdict`: nothing to do, the end of the migration, a write that landed,
or a write that failed and is worth another attempt. `Migration.pass` finds the verdict against any
client; `Registry.reconcile` records it.
-/

namespace Handover

/-- Why a pass ends a migration without success. -/
inductive FailureCause where
  | timedOut (milliseconds : Nat)
  | platform (e : PlatformError)
  | scaleOutOfRange (ref : ResourceRef) (amount : Int)
  | scaleInOfRange (ref : ResourceRef) (amount : Int)
  | exhausted (attempt : Nat) (e : PlatformError)
  deriving DecidableEq

/-- The wording of a cause. -/
def FailureCause.message : FailureCause → String
  | timedOut milliseconds =>
    "migration task timeout exceeded after " ++ toString (milliseconds / 1000) ++ "s"
  | platform e => e.message
  | scaleOutOfRange ref amount =>
    "cannot scale out " ++ ref.text ++ " by " ++ toString amount ++ ": replica count out of range"
  | scaleInOfRange ref amount =>
    "cannot scale in " ++ ref.text ++ " by " ++ toString amount ++ ": replica count out of range"
  | exhausted attempt e =>
    "giving up after " ++ toString attempt ++ " failed writes: " ++ e.message

/-- What came of a pass. -/
inductive Verdict where
  | unchanged
  | succeeded
  | failed (cause : FailureCause)
  | landed (side : Side) (amount generation : Int)
  | refused (e : WriteError)
  deriving DecidableEq

/-- Whether a replica count fits the platform's 32-bit counts. -/
def inReplicaRange (count : Int) : Bool :=
  IntRange.signed32.contains count

namespace Migration

variable {σ : Type}

/-- The counts that a plan is made from. -/
def observe (src dst : Workload) : Observation :=
  ⟨src.declared, dst.declared, dst.status.availableReplicas⟩

/-- Whether the objects read are recent enough to plan from: not older than the migration's own
writes, and their controllers have seen their latest specification. -/
def isCurrent (m : Migration) (src dst : Workload) : Bool :=
  m.generations.src ≤ src.metadata.generation ∧ m.generations.dst ≤ dst.metadata.generation ∧
    src.isObserved ∧ dst.isObserved

/-- The verdict on a failed write: retryable errors are refusals until there are too many. -/
def onWriteError (m : Migration) (limit : Nat) (resource : ResourceRef) (e : PlatformError) :
    Verdict :=
  if e.retryable then
    let attempt := keptCount (m.writeFailures + 1)
    if limit < attempt then .failed (.exhausted attempt e) else .refused ⟨resource, attempt, e⟩
  else .failed (.platform e)

/-- Declare a new replica count on one side. -/
def write (client : Client σ) (limit : Nat) (m : Migration) (side : Side) (amount : Int)
    (object : Workload) (replicas : Int) (s : σ) : Verdict × σ :=
  let object := object.withReplicas (some replicas)
  match client.update object s with
  | (.ok written, s) => (.landed side amount written.metadata.generation, s)
  | (.error e, s) => (m.onWriteError limit object.ref e, s)

/-- Take the planned step. -/
def act (client : Client σ) (limit : Nat) (m : Migration) (src dst : Workload) (step : Step)
    (s : σ) : Verdict × σ :=
  match step with
  | .complete => (.succeeded, s)
  | .wait _ => (.unchanged, s)
  | .scaleOut n =>
    if inReplicaRange (dst.declared + n) then m.write client limit .dst n dst (dst.declared + n) s
    else (.failed (.scaleOutOfRange m.dst n), s)
  | .scaleIn n =>
    if inReplicaRange (src.declared - n) then m.write client limit .src n src (src.declared - n) s
    else (.failed (.scaleInOfRange m.src n), s)

/-- Plan from the two objects read and take the step. -/
def proceed (client : Client σ) (limit : Nat) (m : Migration) (src dst : Workload) (s : σ) :
    Verdict × σ :=
  if m.isCurrent src dst then
    m.act client limit src dst
      (plan m.goal.replicas m.goal.maxSurge m.counters (observe src dst)) s
  else (.unchanged, s)

/-- Read both objects, the source first. -/
def readBoth (client : Client σ) (m : Migration) (s : σ) :
    Except PlatformError (Workload × Workload) × σ :=
  match client.get m.src s with
  | (.error e, s) => (.error e, s)
  | (.ok src, s) =>
    match client.get m.dst s with
    | (.error e, s) => (.error e, s)
    | (.ok dst, s) => (.ok (src, dst), s)

/-- One pass over a migration. -/
def pass (client : Client σ) (limit : Nat) (now : Nat) (m : Migration) (s : σ) : Verdict × σ :=
  if m.isTerminal then (.unchanged, s)
  else if m.isComplete then (.succeeded, s)
  else if m.timedOut now then (.failed (.timedOut (m.goal.timeout.getD 0)), s)
  else
    match m.readBoth client s with
    | (.error e, s) => (.failed (.platform e), s)
    | (.ok (src, dst), s) => m.proceed client limit src dst s

end Migration

/-- How a verdict ends a migration, if it does. -/
def Verdict.ending? (now : Nat) : Verdict → Option Ending
  | succeeded => some ⟨true, "", now⟩
  | failed cause => some ⟨false, cause.message, now⟩
  | unchanged | landed .. | refused _ => none

/-- What a verdict changes in a migration, its end apart. -/
def Verdict.applyTo (v : Verdict) (m : Migration) : Migration :=
  match v with
  | landed side amount generation =>
    ((m.withWriteFailures 0).recordGeneration side generation).advanceSide side amount
  | refused e => m.withWriteFailures e.attempt
  | failed (.exhausted attempt _) => m.withWriteFailures attempt
  | unchanged | succeeded | failed _ => m

/-- What a pass answers: the error of a write worth another attempt. -/
def Verdict.answer : Verdict → Except WriteError Unit
  | refused e => .error e
  | _ => .ok ()

namespace Registry

variable {σ : Type}

/-- Record a verdict on a known migration. -/
def record (g : Registry) (id : MigrationId) (now : Nat) (v : Verdict) : Registry :=
  let g := g.modify id v.applyTo
  match v.ending? now with
  | none => g
  | some ending => (g.finish id ending).2

/-- One pass over a known migration; an unknown one is left alone. -/
def reconcile (client : Client σ) (limit : Nat) (now : Nat) (id : MigrationId) (g : Registry)
    (s : σ) : Except WriteError Unit × Registry × σ :=
  match g.get? id with
  | none => (.ok (), g, s)
  | some m =>
    let (v, s) := m.pass client limit now s
    (v.answer, g.record id now v, s)

end Registry

/-- What a reconciler shows of itself. -/
def describeReconciler (limit : Nat) : String :=
  "Reconciler \x7b max_write_retries: " ++ toString limit ++ ", .. \x7d"

end Handover
