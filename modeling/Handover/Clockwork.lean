/-!
# Virtual time

A `Clockwork` is a state with a clock and background work. The work proceeds in steps while the
clock stands still; some of it waits for a time. `run` does all work that can be done now, and
`moveTo` lets time pass: it stops at every time at which something is due and does the work.
-/

namespace Handover

/-- A state with a clock and background work. -/
class Clockwork (α : Type) where
  /-- The time, in milliseconds. -/
  now : α → Nat
  /-- Set the clock. -/
  setNow : Nat → α → α
  /-- One step of background work that can be done now, if there is any. -/
  step? : α → Option α
  /-- The earliest time for which some work waits. -/
  nextDue? : α → Option Nat
  /-- More steps than the work that can be done now has. -/
  bound : α → Nat

/-- Take steps until there are none, at most `fuel` of them. -/
def exhaust {α : Type} (step? : α → Option α) : Nat → α → α
  | 0, a => a
  | fuel + 1, a =>
    match step? a with
    | none => a
    | some b => exhaust step? fuel b

namespace Clockwork

variable {α : Type} [Clockwork α]

/-- Whether no background work can be done now. -/
def Quiet (a : α) : Prop :=
  step? a = none

/-- Do all background work that can be done now. -/
def run (a : α) : α :=
  exhaust step? (bound a) a

/-- Let time pass until just before a time, stopping at most `stops` times to do what is due. -/
def approach (time : Nat) : Nat → α → α
  | 0, a => setNow time a
  | stops + 1, a =>
    match nextDue? a with
    | none => setNow time a
    | some due =>
      if time ≤ due then setNow time a
      else approach time stops (run (setNow (max due (now a)) a))

/-- Let time pass until a time; work that is due at that very time is not done yet. -/
def moveTo (time : Nat) (a : α) : α :=
  approach time (time - now a) (run a)

/-- Let some time pass, with all the work of its last millisecond. -/
def advance (milliseconds : Nat) (a : α) : α :=
  run (moveTo (now a + milliseconds) a)

end Clockwork

end Handover
