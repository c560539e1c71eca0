import Handover.Json.Decode

/-!
# Settings

The settings of a migrator: its number of workers, the backoff of failed passes, how many failed
writes a migration survives, how long finished migrations are kept, and how often to poll. Every
setting has a default. Settings are read from JSON and shown as text. What a list may stand for
depends on the format that was read, so the readers take the way to open a value of so many fields.
-/

namespace Handover

/-- The backoff of retries: delays start at a base, double, and stay below a bound. -/
structure Backoff where
  baseDelayMs : Nat
  maxDelayMs : Nat
  deriving DecidableEq

namespace Backoff

/-- Five milliseconds at first, a thousand seconds at most. -/
def default : Backoff :=
  ⟨5, 1000000⟩

/-- The greatest number of 64 bits, at which delays saturate. -/
def ceiling : Nat :=
  18446744073709551615

/-- The delay after a number of consecutive failures; it doubles at most 63 times. -/
def delayFor (b : Backoff) (failures : Nat) : Nat :=
  min (min (b.baseDelayMs <<< min (failures - 1) 63) ceiling) b.maxDelayMs

/-- A backoff as JSON. -/
def toJson (b : Backoff) : Json :=
  .ofFields
    [("base_delay_ms", .int b.baseDelayMs),
     ("max_delay_ms", .int b.maxDelayMs)]

/-- The backoff that a value writes. -/
def ofRecord? (open? : Nat → Json → Option Json.Record) (j : Json) : Option Backoff := do
  let r ← open? 2 j
  let baseDelayMs ← r.defaulted 0 "base_delay_ms" Json.nat64? default.baseDelayMs
  let maxDelayMs ← r.defaulted 1 "max_delay_ms" Json.nat64? default.maxDelayMs
  return { baseDelayMs, maxDelayMs }

/-- The backoff that a JSON value writes. -/
def ofJson? : Json → Option Backoff :=
  ofRecord? Json.record?

/-- A backoff shown with its fields. -/
def describe (b : Backoff) : String :=
  "RateLimiterConfig \x7b base_delay_ms: " ++ toString b.baseDelayMs ++ ", max_delay_ms: " ++
    toString b.maxDelayMs ++ " \x7d"

end Backoff

/-- How long finished migrations are kept, and how many. -/
structure Retention where
  finishedTtlSecs : Nat
  maxFinished : Nat
  deriving DecidableEq

namespace Retention

/-- An hour, and 1024 migrations. -/
def default : Retention :=
  ⟨3600, 1024⟩

/-- The age, in milliseconds, up to which a finished migration is kept. -/
def ttl (p : Retention) : Nat :=
  p.finishedTtlSecs * 1000

/-- A policy as JSON. -/
def toJson (p : Retention) : Json :=
  .ofFields
    [("finished_ttl_secs", .int p.finishedTtlSecs),
     ("max_finished", .int p.maxFinished)]

/-- The policy that a value writes. -/
def ofRecord? (open? : Nat → Json → Option Json.Record) (j : Json) : Option Retention := do
  let r ← open? 2 j
  let finishedTtlSecs ← r.defaulted 0 "finished_ttl_secs" Json.nat64? default.finishedTtlSecs
  let maxFinished ← r.defaulted 1 "max_finished" Json.nat64? default.maxFinished
  return { finishedTtlSecs, maxFinished }

/-- The policy that a JSON value writes. -/
def ofJson? : Json → Option Retention :=
  ofRecord? Json.record?

/-- A policy shown with its fields. -/
def describe (p : Retention) : String :=
  "RetentionPolicy \x7b finished_ttl_secs: " ++ toString p.finishedTtlSecs ++
    ", max_finished: " ++ toString p.maxFinished ++ " \x7d"

end Retention

/-- The settings of a migrator. -/
structure Settings where
  workers : Nat
  backoff : Backoff
  maxWriteRetries : Nat
  retention : Retention
  pollIntervalMs : Nat
  deriving DecidableEq

namespace Settings

/-- The settings that hold where nothing else is said. -/
def default : Settings :=
  { workers := 5
    backoff := .default
    maxWriteRetries := 5
    retention := .default
    pollIntervalMs := 1000 }

instance : Inhabited Settings :=
  ⟨default⟩

/-- Settings as JSON. -/
def toJson (s : Settings) : Json :=
  .ofFields
    [("workers", .int s.workers),
     ("rate_limiter", s.backoff.toJson),
     ("max_write_retries", .int s.maxWriteRetries),
     ("retention", s.retention.toJson),
     ("poll_interval_ms", .int s.pollIntervalMs)]

/-- The settings that a value writes. -/
def ofRecord? (open? : Nat → Json → Option Json.Record) (j : Json) : Option Settings := do
  let r ← open? 5 j
  let workers ← r.defaulted 0 "workers" Json.nat64? default.workers
  let backoff ← r.defaulted 1 "rate_limiter" (Backoff.ofRecord? open?) default.backoff
  let maxWriteRetries ← r.defaulted 2 "max_write_retries" Json.nat32? default.maxWriteRetries
  let retention ← r.defaulted 3 "retention" (Retention.ofRecord? open?) default.retention
  let pollIntervalMs ← r.defaulted 4 "poll_interval_ms" Json.nat64? default.pollIntervalMs
  return { workers, backoff, maxWriteRetries, retention, pollIntervalMs }

/-- The settings that a JSON value writes. -/
def ofJson? : Json → Option Settings :=
  ofRecord? Json.record?

/-- Settings shown with their fields. -/
def describe (s : Settings) : String :=
  "MigratorConfig \x7b workers: " ++ toString s.workers ++ ", rate_limiter: " ++
    s.backoff.describe ++ ", max_write_retries: " ++ toString s.maxWriteRetries ++
    ", retention: " ++ s.retention.describe ++ ", poll_interval_ms: " ++
    toString s.pollIntervalMs ++ " \x7d"

end Settings

end Handover
