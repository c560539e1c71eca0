import Handover.Settings
import Handover.Table

/-!
# The work queue

A queue of items to be processed. An item that is added while it is pending stays one entry; an item
that is added while it is being processed becomes pending when that is done, so no item is ever
processed twice at once. Items may be added after a delay, and failed items after a growing backoff.

A getter that finds the queue empty goes to sleep and is woken by a later addition: the longest
sleeper first, and if nobody sleeps the wake-up is kept for the next one who asks. Getters are
numbered by whoever runs them.
-/

namespace Handover

/-- Sleeping getters, woken getters that have not run yet, and whether a wake-up is kept. -/
structure Wakeups where
  sleeping : List Nat
  ready : List Nat
  kept : Bool
  deriving DecidableEq

namespace Wakeups

/-- Nobody waits. -/
def none : Wakeups :=
  ⟨[], [], false⟩

/-- Wake the longest sleeper, or keep the wake-up. -/
def wakeOne (w : Wakeups) : Wakeups :=
  match w.sleeping with
  | [] => { w with kept := true }
  | getter :: rest => { w with sleeping := rest, ready := w.ready ++ [getter] }

/-- Wake every sleeper. -/
def wakeAll (w : Wakeups) : Wakeups :=
  { w with sleeping := [], ready := w.ready ++ w.sleeping }

/-- Let a getter run when it is its turn. -/
def enter (w : Wakeups) (getter : Nat) : Wakeups :=
  { w with ready := w.ready ++ [getter] }

/-- Take a getter from those that are to run. -/
def leave (w : Wakeups) (getter : Nat) : Wakeups :=
  { w with ready := w.ready.erase getter }

/-- Put a getter to sleep. -/
def sleep (w : Wakeups) (getter : Nat) : Wakeups :=
  { w with sleeping := w.sleeping ++ [getter] }

end Wakeups

/-- An item that is to be added at some time. -/
structure Delayed (ι : Type) where
  due : Nat
  item : ι

/-- A work queue. Dirty items have been added and not been handed out since; each of them is either
pending or being processed. -/
structure WorkQueue (ι : Type) where
  name : String
  backoff : Backoff
  pending : List ι
  dirty : List ι
  processing : List ι
  failures : Table ι Nat
  shuttingDown : Bool
  wakeups : Wakeups
  delayed : List (Delayed ι)

/-- What a getter gets. -/
inductive Handout (ι : Type) where
  | item (x : ι)
  | shutDown
  | nothing

namespace WorkQueue

variable {ι : Type}

/-- A queue without items. -/
def empty (name : String) (backoff : Backoff) : WorkQueue ι :=
  { name, backoff
    pending := []
    dirty := []
    processing := []
    failures := .empty
    shuttingDown := false
    wakeups := .none
    delayed := [] }

/-- The number of pending items. -/
def length (q : WorkQueue ι) : Nat :=
  q.pending.length

/-- Make an item pending and wake a getter. -/
def push (q : WorkQueue ι) (x : ι) : WorkQueue ι :=
  { q with pending := q.pending ++ [x], wakeups := q.wakeups.wakeOne }

/-- Hand out no more items, and wake every getter to tell it. -/
def shutdown (q : WorkQueue ι) : WorkQueue ι :=
  { q with shuttingDown := true, wakeups := q.wakeups.wakeAll }

/-- A queue shown with its name and counts. -/
def describe (quote : String → String) (q : WorkQueue ι) : String :=
  "WorkQueue \x7b name: " ++ quote q.name ++ ", pending: " ++ toString q.pending.length ++
    ", processing: " ++ toString q.processing.length ++ ", shutting_down: " ++
    toString q.shuttingDown ++ " \x7d"

/-! ## Delayed items -/

/-- The earliest time at which a delayed item is due. -/
def nextDue? (q : WorkQueue ι) : Option Nat :=
  (q.delayed.map (·.due)).min?

/-- The first delayed item that is due, and the other delayed items. -/
def splitDue? (now : Nat) : List (Delayed ι) → Option (Delayed ι × List (Delayed ι))
  | [] => none
  | d :: rest =>
    if d.due ≤ now then some (d, rest)
    else (splitDue? now rest).map fun (found, others) => (found, d :: others)

variable [DecidableEq ι]

/-- Add an item. -/
def add (q : WorkQueue ι) (x : ι) : WorkQueue ι :=
  if q.shuttingDown ∨ x ∈ q.dirty then q
  else
    let q := { q with dirty := q.dirty ++ [x] }
    if x ∈ q.processing then q else q.push x

/-- Ask for an item once. A kept wake-up is used up by asking. -/
def take (q : WorkQueue ι) : Handout ι × WorkQueue ι :=
  let q := { q with wakeups := { q.wakeups with kept := false } }
  if q.shuttingDown then (.shutDown, q)
  else
    match q.pending with
    | [] => (.nothing, q)
    | x :: rest =>
      (.item x,
        { q with
          pending := rest
          dirty := q.dirty.erase x
          processing := if x ∈ q.processing then q.processing else q.processing ++ [x] })

/-- Let a getter run: it asks once and goes to sleep if there is nothing. -/
def serve (q : WorkQueue ι) (getter : Nat) : Handout ι × WorkQueue ι :=
  match { q with wakeups := q.wakeups.leave getter }.take with
  | (.nothing, q) => (.nothing, { q with wakeups := q.wakeups.sleep getter })
  | answer => answer

/-- Stop processing an item; it becomes pending if it was added meanwhile. -/
def done (q : WorkQueue ι) (x : ι) : WorkQueue ι :=
  let q := { q with processing := q.processing.erase x }
  if x ∈ q.dirty ∧ ¬ q.shuttingDown then q.push x else q

/-- Add an item after a delay. -/
def addAfter (q : WorkQueue ι) (now : Nat) (x : ι) (delay : Nat) : WorkQueue ι :=
  if q.shuttingDown then q
  else if delay = 0 then q.add x
  else { q with delayed := q.delayed ++ [⟨now + delay, x⟩] }

/-- How often an item has failed since it was last forgotten. -/
def requeues (q : WorkQueue ι) (x : ι) : Nat :=
  (q.failures.get? x).getD 0

/-- Add an item after the delay of its backoff, which grows. -/
def addRateLimited (q : WorkQueue ι) (now : Nat) (x : ι) : WorkQueue ι :=
  let failures := keptCount (q.requeues x + 1)
  { q with failures := q.failures.insert x failures }.addAfter now x (q.backoff.delayFor failures)

/-- Forget the failures of an item. -/
def forget (q : WorkQueue ι) (x : ι) : WorkQueue ι :=
  { q with failures := q.failures.erase x }

/-- Add the first delayed item that is due. -/
def expire? (q : WorkQueue ι) (now : Nat) : Option (WorkQueue ι) :=
  (splitDue? now q.delayed).map fun (d, rest) => { q with delayed := rest }.add d.item

end WorkQueue

end Handover
