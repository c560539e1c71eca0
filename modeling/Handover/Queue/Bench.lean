import Handover.Clockwork
import Handover.Queue

/-!
# Waiting getters

A queue with a clock and getters that wait for its items. A getter that has been started asks the
queue when it is its turn and is done once it has got an item, or has been told that there will be
none.
-/

namespace Handover

/-- Where a getter stands: waiting, or with what it got. -/
inductive Getter (ι : Type) where
  | waiting
  | got (item : Option ι)

/-- What a getter has got from a hand-out, if it is done. -/
def Getter.ofHandout {ι : Type} : Handout ι → Getter ι
  | .item x => .got (some x)
  | .shutDown => .got none
  | .nothing => .waiting

/-- A queue with a clock and getters. -/
structure QueueBench (ι : Type) where
  now : Nat
  queue : WorkQueue ι
  getters : List (Getter ι)

namespace QueueBench

variable {ι : Type}

/-- A queue without items and getters. -/
def start (name : String) (backoff : Backoff) : QueueBench ι :=
  ⟨0, .empty name backoff, []⟩

/-- Operate the queue. -/
def onQueue (b : QueueBench ι) (f : WorkQueue ι → WorkQueue ι) : QueueBench ι :=
  { b with queue := f b.queue }

/-- Start a getter, which takes the next number. -/
def addGetter (b : QueueBench ι) : QueueBench ι :=
  { b with
    getters := b.getters ++ [.waiting]
    queue := { b.queue with wakeups := b.queue.wakeups.enter b.getters.length } }

variable [DecidableEq ι]

/-- Let a getter that is to run ask the queue. -/
def wake? (b : QueueBench ι) (getter : Nat) : Option (QueueBench ι) :=
  if getter ∈ b.queue.wakeups.ready then
    let (handout, queue) := b.queue.serve getter
    some { b with queue, getters := b.getters.set getter (.ofHandout handout) }
  else none

/-- Add the first delayed item that is due. -/
def expire? (b : QueueBench ι) : Option (QueueBench ι) :=
  (b.queue.expire? b.now).map fun queue => { b with queue }

instance : Clockwork (QueueBench ι) where
  now := QueueBench.now
  setNow now b := { b with now }
  step? b := (b.queue.wakeups.ready.head?.bind b.wake?) <|> b.expire?
  nextDue? b := b.queue.nextDue?
  bound b := 2 * (b.queue.delayed.length + b.queue.wakeups.ready.length +
    b.queue.wakeups.sleeping.length) + 1

end QueueBench

end Handover
