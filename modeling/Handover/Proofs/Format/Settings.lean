import Handover.Proofs.Format
import Handover.Settings

/-!
# The format of settings

Every field of settings may be left out, and so may every field of the backoff and of the retention
within them. A field left out takes the value that it has in the default settings.
-/

namespace Handover

namespace Backoff

/-- A backoff whose delays fit 64 bits. -/
structure InRange (b : Backoff) : Prop where
  baseDelayMs : IntRange.unsigned64.contains b.baseDelayMs = true
  maxDelayMs : IntRange.unsigned64.contains b.maxDelayMs = true

/-- The fields of a backoff, as they are written. -/
def fields (b : Backoff) : List (String × Json) :=
  [("base_delay_ms", .int b.baseDelayMs),
   ("max_delay_ms", .int b.maxDelayMs)]

/-- Both fields of a backoff may be left out. -/
def shape : Shape :=
  .record
    [("base_delay_ms", .optional, .leaf),
     ("max_delay_ms", .optional, .leaf)]

/-- A backoff whose written form was edited. -/
def reset (e : Edit) (b : Backoff) : Backoff where
  baseDelayMs := e.leave "base_delay_ms" 5 b.baseDelayMs
  maxDelayMs := e.leave "max_delay_ms" 1000000 b.maxDelayMs

theorem ofJson?_edited {b : Backoff} (h : b.InRange) {e : Edit} (he : e.Permitted shape) :
    ofJson? (e.apply b.toJson) = some (b.reset e) := by
  have hsorted : Keyed.Sorted (Keyed.ofEntries b.fields) := Keyed.sorted_ofEntries b.fields
  rw [show b.toJson = .obj (Keyed.ofEntries b.fields) from rfl, Edit.apply_obj]
  refine Option.bind_eq_some_iff.2 ⟨_, Json.Record.defaulted_leaf hsorted (.int b.baseDelayMs)
    (he.at (by simp)) (by simp [fields])
    (Json.nat64?_int h.baseDelayMs), ?_⟩
  refine Option.bind_eq_some_iff.2 ⟨_, Json.Record.defaulted_leaf hsorted (.int b.maxDelayMs)
    (he.at (by simp)) (by simp [fields])
    (Json.nat64?_int h.maxDelayMs), ?_⟩
  rfl

theorem holds_toJson (b : Backoff) : shape.Holds b.toJson :=
  Shape.holds_ofFields rfl (by simp) (by simp)

theorem reset_bare (e : Edit) (b : Backoff) : b.reset e.bare = b.reset e := by
  simp [reset]

theorem within_toJson {b : Backoff} (h : b.InRange) (depth : Nat) (good : Double → Prop) :
    b.toJson.Within (depth + 1) good := by
  refine Json.within_ofFields ?_
  simp [Json.within_int (Json.Fits.of_unsigned64 h.baseDelayMs),
    Json.within_int (Json.Fits.of_unsigned64 h.maxDelayMs)]

theorem inRange_of_ofJson? {j : Json} {b : Backoff} (h : ofJson? j = some b) : b.InRange := by
  obtain ⟨r, -, h⟩ := Option.bind_eq_some_iff.1 h
  obtain ⟨baseDelayMs, hbase, h⟩ := Option.bind_eq_some_iff.1 h
  obtain ⟨maxDelayMs, hmax, h⟩ := Option.bind_eq_some_iff.1 h
  obtain rfl := Option.some.inj h
  exact
    { baseDelayMs :=
        Json.Record.forall_of_defaulted hbase (by decide) fun _ _ _ => Json.contains_of_nat64?
      maxDelayMs :=
        Json.Record.forall_of_defaulted hmax (by decide) fun _ _ _ => Json.contains_of_nat64? }

end Backoff

namespace Retention

/-- A policy whose numbers fit 64 bits. -/
structure InRange (p : Retention) : Prop where
  finishedTtlSecs : IntRange.unsigned64.contains p.finishedTtlSecs = true
  maxFinished : IntRange.unsigned64.contains p.maxFinished = true

/-- The fields of a policy, as they are written. -/
def fields (p : Retention) : List (String × Json) :=
  [("finished_ttl_secs", .int p.finishedTtlSecs),
   ("max_finished", .int p.maxFinished)]

/-- Both fields of a policy may be left out. -/
def shape : Shape :=
  .record
    [("finished_ttl_secs", .optional, .leaf),
     ("max_finished", .optional, .leaf)]

/-- A policy whose written form was edited. -/
def reset (e : Edit) (p : Retention) : Retention where
  finishedTtlSecs := e.leave "finished_ttl_secs" 3600 p.finishedTtlSecs
  maxFinished := e.leave "max_finished" 1024 p.maxFinished

theorem ofJson?_edited {p : Retention} (h : p.InRange) {e : Edit} (he : e.Permitted shape) :
    ofJson? (e.apply p.toJson) = some (p.reset e) := by
  have hsorted : Keyed.Sorted (Keyed.ofEntries p.fields) := Keyed.sorted_ofEntries p.fields
  rw [show p.toJson = .obj (Keyed.ofEntries p.fields) from rfl, Edit.apply_obj]
  refine Option.bind_eq_some_iff.2 ⟨_, Json.Record.defaulted_leaf hsorted (.int p.finishedTtlSecs)
    (he.at (by simp)) (by simp [fields])
    (Json.nat64?_int h.finishedTtlSecs), ?_⟩
  refine Option.bind_eq_some_iff.2 ⟨_, Json.Record.defaulted_leaf hsorted (.int p.maxFinished)
    (he.at (by simp)) (by simp [fields])
    (Json.nat64?_int h.maxFinished), ?_⟩
  rfl

theorem holds_toJson (p : Retention) : shape.Holds p.toJson :=
  Shape.holds_ofFields rfl (by simp) (by simp)

theorem reset_bare (e : Edit) (p : Retention) : p.reset e.bare = p.reset e := by
  simp [reset]

theorem within_toJson {p : Retention} (h : p.InRange) (depth : Nat) (good : Double → Prop) :
    p.toJson.Within (depth + 1) good := by
  refine Json.within_ofFields ?_
  simp [Json.within_int (Json.Fits.of_unsigned64 h.finishedTtlSecs),
    Json.within_int (Json.Fits.of_unsigned64 h.maxFinished)]

theorem inRange_of_ofJson? {j : Json} {p : Retention} (h : ofJson? j = some p) : p.InRange := by
  obtain ⟨r, -, h⟩ := Option.bind_eq_some_iff.1 h
  obtain ⟨finishedTtlSecs, httl, h⟩ := Option.bind_eq_some_iff.1 h
  obtain ⟨maxFinished, hmax, h⟩ := Option.bind_eq_some_iff.1 h
  obtain rfl := Option.some.inj h
  exact
    { finishedTtlSecs :=
        Json.Record.forall_of_defaulted httl (by decide) fun _ _ _ => Json.contains_of_nat64?
      maxFinished :=
        Json.Record.forall_of_defaulted hmax (by decide) fun _ _ _ => Json.contains_of_nat64? }

end Retention

namespace Settings

/-- Settings whose numbers fit 64 bits, and 32 bits for the writes that may fail. -/
structure InRange (s : Settings) : Prop where
  workers : IntRange.unsigned64.contains s.workers = true
  backoff : s.backoff.InRange
  maxWriteRetries : IntRange.unsigned32.contains s.maxWriteRetries = true
  retention : s.retention.InRange
  pollIntervalMs : IntRange.unsigned64.contains s.pollIntervalMs = true

/-- The fields of settings, as they are written. -/
def fields (s : Settings) : List (String × Json) :=
  [("workers", .int s.workers),
   ("rate_limiter", s.backoff.toJson),
   ("max_write_retries", .int s.maxWriteRetries),
   ("retention", s.retention.toJson),
   ("poll_interval_ms", .int s.pollIntervalMs)]

/-- Every field of settings may be left out, at both levels. -/
def shape : Shape :=
  .record
    [("workers", .optional, .leaf),
     ("rate_limiter", .optional, Backoff.shape),
     ("max_write_retries", .optional, .leaf),
     ("retention", .optional, Retention.shape),
     ("poll_interval_ms", .optional, .leaf)]

/-- Settings whose written form was edited. -/
def reset (e : Edit) (s : Settings) : Settings where
  workers := e.leave "workers" 5 s.workers
  backoff := e.settle "rate_limiter" ⟨5, 1000000⟩ Backoff.reset s.backoff
  maxWriteRetries := e.leave "max_write_retries" 5 s.maxWriteRetries
  retention := e.settle "retention" ⟨3600, 1024⟩ Retention.reset s.retention
  pollIntervalMs := e.leave "poll_interval_ms" 1000 s.pollIntervalMs

theorem ofJson?_edited {s : Settings} (h : s.InRange) {e : Edit} (he : e.Permitted shape) :
    ofJson? (e.apply s.toJson) = some (s.reset e) := by
  have hsorted : Keyed.Sorted (Keyed.ofEntries s.fields) := Keyed.sorted_ofEntries s.fields
  have hbackoff : e.PermittedAt "rate_limiter" .optional Backoff.shape := he.at (by simp)
  have hretention : e.PermittedAt "retention" .optional Retention.shape := he.at (by simp)
  rw [show s.toJson = .obj (Keyed.ofEntries s.fields) from rfl, Edit.apply_obj]
  refine Option.bind_eq_some_iff.2 ⟨_, Json.Record.defaulted_leaf hsorted (.int s.workers)
    (he.at (by simp)) (by simp [fields])
    (Json.nat64?_int h.workers), ?_⟩
  refine Option.bind_eq_some_iff.2 ⟨_, Json.Record.defaulted_edited hsorted Backoff.reset s.backoff
    _ hbackoff (by simp [fields])
    (Backoff.ofJson?_edited h.backoff hbackoff.within), ?_⟩
  refine Option.bind_eq_some_iff.2 ⟨_, Json.Record.defaulted_leaf hsorted (.int s.maxWriteRetries)
    (he.at (by simp)) (by simp [fields])
    (Json.nat32?_int h.maxWriteRetries), ?_⟩
  refine Option.bind_eq_some_iff.2 ⟨_, Json.Record.defaulted_edited hsorted Retention.reset
    s.retention _ hretention (by simp [fields])
    (Retention.ofJson?_edited h.retention hretention.within), ?_⟩
  refine Option.bind_eq_some_iff.2 ⟨_, Json.Record.defaulted_leaf hsorted (.int s.pollIntervalMs)
    (he.at (by simp)) (by simp [fields])
    (Json.nat64?_int h.pollIntervalMs), ?_⟩
  rfl

theorem holds_toJson (s : Settings) : shape.Holds s.toJson :=
  Shape.holds_ofFields rfl (by simp)
    (by simp [Backoff.holds_toJson s.backoff, Retention.holds_toJson s.retention])

theorem reset_bare (e : Edit) (s : Settings) : s.reset e.bare = s.reset e := by
  simp [reset, Edit.settle_bare, Backoff.reset_bare, Retention.reset_bare]

theorem within_toJson {s : Settings} (h : s.InRange) (depth : Nat) (good : Double → Prop) :
    s.toJson.Within (depth + 2) good := by
  refine Json.within_ofFields ?_
  simp [Json.within_int (Json.Fits.of_unsigned64 h.workers),
    Backoff.within_toJson h.backoff, Json.within_int (Json.Fits.of_unsigned32 h.maxWriteRetries),
    Retention.within_toJson h.retention, Json.within_int (Json.Fits.of_unsigned64 h.pollIntervalMs)]

theorem inRange_of_ofJson? {j : Json} {s : Settings} (h : ofJson? j = some s) : s.InRange := by
  obtain ⟨r, -, h⟩ := Option.bind_eq_some_iff.1 h
  obtain ⟨workers, hworkers, h⟩ := Option.bind_eq_some_iff.1 h
  obtain ⟨backoff, hbackoff, h⟩ := Option.bind_eq_some_iff.1 h
  obtain ⟨maxWriteRetries, hretries, h⟩ := Option.bind_eq_some_iff.1 h
  obtain ⟨retention, hretention, h⟩ := Option.bind_eq_some_iff.1 h
  obtain ⟨pollIntervalMs, hpoll, h⟩ := Option.bind_eq_some_iff.1 h
  obtain rfl := Option.some.inj h
  exact
    { workers :=
        Json.Record.forall_of_defaulted hworkers (by decide) fun _ _ _ => Json.contains_of_nat64?
      backoff :=
        Json.Record.forall_of_defaulted hbackoff ⟨by decide, by decide⟩
          fun _ _ _ => Backoff.inRange_of_ofJson?
      maxWriteRetries :=
        Json.Record.forall_of_defaulted hretries (by decide) fun _ _ _ => Json.contains_of_nat32?
      retention :=
        Json.Record.forall_of_defaulted hretention ⟨by decide, by decide⟩
          fun _ _ _ => Retention.inRange_of_ofJson?
      pollIntervalMs :=
        Json.Record.forall_of_defaulted hpoll (by decide) fun _ _ _ => Json.contains_of_nat64? }

/-- Settings as JSON. -/
def format : Format Settings where
  write := toJson
  read? := ofJson?
  InRange := InRange
  shape := shape
  reset := reset

theorem lasts_toJson {s : Settings} (h : s.InRange) : s.toJson.Lasts :=
  (within_toJson h 125 Double.Lasts).lasts

theorem lawful_format : format.Lawful where
  wellFormed_write h := (within_toJson h 0 fun _ => True).wellFormed
  holds_write := holds_toJson
  inRange_of_read? _ h := inRange_of_ofJson? h
  shallow_write _ h := (within_toJson (inRange_of_ofJson? h) 125 fun _ => True).nesting_le
  lasts_write h _ _ := lasts_toJson h
  read?_edited h he := ofJson?_edited h he
  reset_keep _ := rfl
  reset_bare := reset_bare

end Settings

end Handover
