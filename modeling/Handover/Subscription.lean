import Handover.Client
import Handover.Queue
import Handover.Registry

/-!
# Subscriptions

A subscription follows the events of one kind and makes the migration that owns a changed object
pending. When it has missed events it makes every migration pending that owns an object of its kind,
which covers whatever it missed. It ends when it is told to stop or its events end.
-/

namespace Handover

/-- A follower of one kind's events. One that is not held any more still runs, but is not
counted. -/
structure Subscription where
  kind : WorkloadKind
  receiver : Receiver
  ended : Bool
  held : Bool
  deriving DecidableEq

namespace Subscription

variable {σ : Type}

/-- A subscription that starts with a receiver. -/
def start (kind : WorkloadKind) (receiver : Receiver) : Subscription :=
  ⟨kind, receiver, false, true⟩

/-- The migrations to make pending for a delivery. -/
def wakes (g : Registry) (kind : WorkloadKind) : Delivery → List MigrationId
  | .event e _ => (g.ownerOf? e.object.ref).toList
  | .lagged .. => g.ownersOfKind kind
  | .nothingYet | .closed => []

/-- Make migrations pending. -/
def addAll (q : WorkQueue MigrationId) (ids : List MigrationId) : WorkQueue MigrationId :=
  ids.foldl .add q

/-- One step of a subscription: it stops if told to, else handles its next delivery. -/
def step? (client : Client σ) (stopped : Bool) (g : Registry) (q : WorkQueue MigrationId)
    (s : σ) (b : Subscription) : Option (Subscription × WorkQueue MigrationId) :=
  if b.ended then none
  else if stopped then some ({ b with ended := true }, q)
  else
    match client.receive b.receiver s with
    | .nothingYet => none
    | .closed => some ({ b with ended := true }, q)
    | .event e rest =>
      some ({ b with receiver := rest }, addAll q (wakes g b.kind (.event e rest)))
    | .lagged n rest =>
      some ({ b with receiver := rest }, addAll q (wakes g b.kind (.lagged n rest)))

/-- Subscriptions shown with the kinds of those that are held. -/
def describe (subscriptions : List Subscription) : String :=
  let kinds := (subscriptions.filter (·.held)).map (·.kind.label)
  "Subscriptions \x7b kinds: [" ++ ", ".intercalate kinds ++ "], .. \x7d"

end Subscription

end Handover
