import Handover.Error
import Handover.Snapshot

/-!
# Polling

A caller waits for the end of a migration by asking again and again, at a fixed interval, until the
answer is an error or final, or a deadline has passed. It is told of the first answer and of every
later one in which replicas have moved. The state that is asked, and how it changes from one query
to the next, are the caller's. Times are counted in milliseconds, or in a finer unit of which so
many make a `millisecond`.
-/

namespace Handover

/-- A query that was reported, with the time since polling began. -/
structure Report where
  time : Nat
  snapshot : Snapshot
  deriving DecidableEq

/-- What came of polling: the reports, the times of all queries, the outcome and the last state. -/
structure Polled (σ : Type) where
  reports : Array Report
  times : Array Nat
  outcome : Except MigrationError Snapshot
  state : σ

/-- How to poll: which migration, how often and how long. -/
structure Polling where
  id : MigrationId
  interval : Nat
  deadline : Nat

namespace Polling

variable {σ : Type}

/-- The time between two queries, at least a millisecond. -/
def period (p : Polling) (millisecond : Nat := 1) : Nat :=
  max p.interval millisecond

/-- How many queries follow the first one before the deadline has passed. -/
def rounds (p : Polling) (millisecond : Nat := 1) : Nat :=
  (p.deadline + p.period millisecond - 1) / p.period millisecond

/-- The error of a deadline that has passed. -/
def timeout (p : Polling) (millisecond : Nat := 1) : MigrationError :=
  .timeout p.id (p.deadline / (1000 * millisecond))

/-- Whether a snapshot is worth a report, given the one before it. -/
def isNews (last : Option Snapshot) (s : Snapshot) : Bool :=
  last.all s.progressedSince

/-- Ask at a time, with so many rounds to go; `pass` changes the state until the next query. -/
def loop (p : Polling) (query : σ → Except MigrationError Snapshot) (pass : σ → σ)
    (remaining time : Nat) (last : Option Snapshot) (reports : Array Report) (times : Array Nat)
    (a : σ) (millisecond : Nat := 1) : Polled σ :=
  let times := times.push time
  match query a with
  | .error e => ⟨reports, times, .error e, a⟩
  | .ok s =>
    let reports := if isNews last s then reports.push ⟨time, s⟩ else reports
    if s.phase.isTerminal then ⟨reports, times, .ok s, a⟩
    else
      match remaining with
      | 0 => ⟨reports, times, .error (p.timeout millisecond), a⟩
      | remaining + 1 =>
        loop p query pass remaining (time + p.period millisecond) (some s) reports times (pass a)
          millisecond

/-- Poll until the end or the deadline. -/
def run (p : Polling) (query : σ → Except MigrationError Snapshot) (pass : σ → σ) (a : σ)
    (millisecond : Nat := 1) : Polled σ :=
  p.loop query pass (p.rounds millisecond) 0 none #[] #[] a millisecond

end Polling

end Handover
