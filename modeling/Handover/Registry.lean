import Handover.Error
import Handover.Migration
import Handover.Settings
import Handover.Table

/-!
# The registry

The registry holds the migrations that are known, the owner of each object that an executing
migration has claimed, and the kinds that are being watched. Registering an executing migration
claims both its objects; finishing it releases those it still owns. Finished migrations are evicted
by age and by number, the oldest first.
-/

namespace Handover

/-- Known migrations, the owners of claimed objects, and the watched kinds. -/
structure Registry where
  migrations : Table MigrationId Migration
  owners : Table ResourceRef MigrationId
  watched : List WorkloadKind

namespace Registry

/-- A registry that knows nothing. -/
def empty : Registry :=
  ⟨.empty, .empty, []⟩

instance : Inhabited Registry :=
  ⟨empty⟩

/-- A known migration. -/
def get? (g : Registry) (id : MigrationId) : Option Migration :=
  g.migrations.get? id

/-- What a caller is told about a migration. -/
def query (g : Registry) (id : MigrationId) : Except MigrationError Snapshot :=
  match g.get? id with
  | none => .error (.taskNotFound id)
  | some m => .ok m.snapshot

/-- The migration that owns an object. -/
def ownerOf? (g : Registry) (r : ResourceRef) : Option MigrationId :=
  g.owners.get? r

/-- The owners of objects of a kind, in order, each once. -/
def ownersOfKind (g : Registry) (kind : WorkloadKind) : List MigrationId :=
  MigrationId.sort ((g.owners.entries.filter fun e => e.1.kind? = some kind).map Prod.snd)

/-- Whether an object is free to be claimed. -/
def ensureFree (g : Registry) (r : ResourceRef) : Except MigrationError Unit :=
  if g.owners.contains r then .error (.alreadyExecuting r) else .ok ()

/-- Whether a kind is being watched. -/
def isWatched (g : Registry) (kind : WorkloadKind) : Bool :=
  kind ∈ g.watched

/-- Remember that a kind is being watched. -/
def markWatched (g : Registry) (kind : WorkloadKind) : Registry :=
  { g with watched := if kind ∈ g.watched then g.watched else g.watched ++ [kind] }

/-- Register a migration; an executing one claims both its objects. -/
def register (g : Registry) (m : Migration) : Registry :=
  { g with
    migrations := g.migrations.insert m.id m
    owners :=
      if m.isTerminal then g.owners else (g.owners.insert m.src m.id).insert m.dst m.id }

/-- Change a known migration. -/
def modify (g : Registry) (id : MigrationId) (f : Migration → Migration) : Registry :=
  { g with migrations := g.migrations.modify id f }

/-- Give up the claim of a migration on an object, if it is the owner. -/
def release (g : Registry) (id : MigrationId) (r : ResourceRef) : Registry :=
  if g.ownerOf? r = some id then { g with owners := g.owners.erase r } else g

/-- End a known migration and release its objects; answers whether it was executing. -/
def finish (g : Registry) (id : MigrationId) (ending : Ending) : Bool × Registry :=
  match g.get? id with
  | none => (false, g)
  | some m =>
    if m.isTerminal then (false, g)
    else (true, ((g.modify id (·.finish ending)).release id m.src).release id m.dst)

/-! ## Retention -/

/-- The time at which a migration ended and its identifier, by which finished migrations are
ordered. -/
structure Finished where
  time : Nat
  id : MigrationId
  deriving DecidableEq

/-- Earlier first; of two that ended at the same time, the smaller identifier first. -/
def Finished.before (a b : Finished) : Bool :=
  a.time < b.time ∨ (a.time = b.time ∧ a.id.number ≤ b.id.number)

/-- The finished migrations, in order. -/
def finished (g : Registry) : List Finished :=
  (g.migrations.values.filterMap fun m => m.ending.map fun e => ⟨e.time, m.id⟩).mergeSort
    Finished.before

/-- The finished migrations that a policy evicts: those that are too old, and after them as many
as are too many. -/
def evicted (g : Registry) (policy : Retention) (now : Nat) : List MigrationId :=
  let expired := (g.finished.takeWhile fun f => policy.ttl < now - f.time).length
  let excess := g.finished.length - expired - policy.maxFinished
  (g.finished.take (expired + excess)).map (·.id)

/-- Evict finished migrations; answers how many. -/
def prune (g : Registry) (policy : Retention) (now : Nat) : Nat × Registry :=
  let ids := g.evicted policy now
  (ids.length, { g with migrations := g.migrations.keep fun id _ => id ∉ ids })

end Registry

end Handover
