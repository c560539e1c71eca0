import Handover.Poll
import Mathlib.Algebra.Order.Floor.Div
import Mathlib.Order.Bounds.Basic
import Mathlib.Tactic.IntervalCases

/-!
# When polling ends and what it tells

The successive queries of a polling are answered in whatever way: `Polling.answer` is the sequence
of the answers. Polling goes through it up to the first answer with which it `Ends`, an error, a
final snapshot or one that comes when the deadline has passed (`loop_eq`), so it always ends
(`ends_rounds`). Of the answers on the way it reports those that do not repeat the counters of the
one before (`heard`).
-/

namespace Handover.Polling

variable {σ : Type}

/-- The answer to the query that follows so many passes. -/
def answer (query : σ → Except MigrationError Snapshot) (pass : σ → σ) (a : σ) (k : Nat) :
    Except MigrationError Snapshot :=
  query (pass^[k] a)

/-- Polling ends with an answer that is an error, that is final, or that comes when the deadline has
passed. -/
def Ends (p : Polling) (millisecond : Nat) (answers : Nat → Except MigrationError Snapshot)
    (k : Nat) : Prop :=
  (∃ e, answers k = .error e) ∨
    (∃ s, answers k = .ok s ∧ s.phase.isTerminal = true) ∨
    p.deadline ≤ k * p.period millisecond

/-- Whether the answer to a query is a snapshot with the counters of the one before. -/
def repeats (answers : Nat → Except MigrationError Snapshot) : Nat → Bool
  | 0 => false
  | k + 1 =>
    match answers k, answers (k + 1) with
    | .ok s, .ok t => t.counters = s.counters
    | _, _ => false

/-- What is reported of some queries: the snapshots among the answers, without those that repeat
the counters of the one before. -/
def heard (p : Polling) (millisecond : Nat) (answers : Nat → Except MigrationError Snapshot)
    (queries : List Nat) : List Report :=
  (queries.filter fun k => !repeats answers k).filterMap fun k =>
    (answers k).toOption.map fun s => ⟨k * p.period millisecond, s⟩

/-- The outcome of a polling that ends with an answer. -/
def verdict (p : Polling) (millisecond : Nat) :
    Except MigrationError Snapshot → Except MigrationError Snapshot
  | .error e => .error e
  | .ok s => if s.phase.isTerminal then .ok s else .error (p.timeout millisecond)

/-- The snapshot before a query. -/
def preceding (answers : Nat → Except MigrationError Snapshot) : Nat → Option Snapshot
  | 0 => none
  | k + 1 => (answers k).toOption

variable {p : Polling} {millisecond : Nat} {query : σ → Except MigrationError Snapshot}
  {pass : σ → σ} {a : σ} {answers : Nat → Except MigrationError Snapshot} {J k : Nat}
  {s : Snapshot}

/-! ## The deadline -/

theorem period_pos (p : Polling) (h : 0 < millisecond) : 0 < p.period millisecond :=
  lt_max_of_lt_right h

theorem rounds_eq_ceilDiv (p : Polling) (millisecond : Nat) :
    p.rounds millisecond = p.deadline ⌈/⌉ p.period millisecond :=
  rfl

/-- The rounds are over just when the deadline has passed. -/
theorem rounds_le_iff (h : 0 < millisecond) :
    p.rounds millisecond ≤ k ↔ p.deadline ≤ k * p.period millisecond := by
  rw [rounds_eq_ceilDiv, ceilDiv_le_iff_le_mul (p.period_pos h), Nat.mul_comm]

/-- When the rounds are over polling ends, whatever the answer. -/
theorem ends_rounds (p : Polling) (h : 0 < millisecond)
    (answers : Nat → Except MigrationError Snapshot) :
    p.Ends millisecond answers (p.rounds millisecond) :=
  .inr (.inr ((rounds_le_iff h).1 (le_refl _)))

/-- An answer with which polling does not end is a snapshot that is not final, and there are rounds
to go. -/
theorem exists_of_not_ends (h : 0 < millisecond) (hk : ¬ p.Ends millisecond answers k) :
    ∃ s, answers k = .ok s ∧ s.phase.isTerminal = false ∧ k < p.rounds millisecond := by
  unfold Ends at hk
  rw [not_or, not_or, ← rounds_le_iff h, Nat.not_le] at hk
  obtain ⟨herror, hterminal, hlt⟩ := hk
  cases hanswer : answers k with
  | error e => exact absurd ⟨e, hanswer⟩ herror
  | ok s =>
    have hopen : s.phase.isTerminal = false :=
      Bool.eq_false_iff.2 fun hfinal => hterminal ⟨s, hanswer, hfinal⟩
    exact ⟨s, rfl, hopen, hlt⟩

/-! ## Reports -/

/-- A snapshot is news just if it does not repeat the counters of the one before. -/
theorem isNews_preceding (hk : answers k = .ok s) :
    isNews (preceding answers k) s = !repeats answers k := by
  cases k with
  | zero => rfl
  | succ j =>
    simp only [preceding, repeats, isNews, hk]
    cases answers j with
    | error e => rfl
    | ok t => simp [Except.toOption, Snapshot.progressedSince]

theorem heard_cons (p : Polling) (millisecond : Nat)
    (answers : Nat → Except MigrationError Snapshot) (k : Nat) (queries : List Nat) :
    p.heard millisecond answers (k :: queries) =
      p.heard millisecond answers [k] ++ p.heard millisecond answers queries := by
  unfold heard
  rw [← List.filterMap_append, ← List.filter_append]
  rfl

theorem heard_of_error {e : MigrationError} (hk : answers k = .error e) :
    p.heard millisecond answers [k] = [] := by
  unfold heard
  rw [List.filterMap_eq_nil_iff]
  intro j hj
  obtain rfl := List.mem_singleton.1 (List.mem_of_mem_filter hj)
  rw [hk]
  rfl

/-- A snapshot is reported just if it is news. -/
theorem heard_of_ok (hk : answers k = .ok s) :
    p.heard millisecond answers [k] =
      if isNews (preceding answers k) s then [⟨k * p.period millisecond, s⟩] else [] := by
  rw [isNews_preceding hk]
  unfold heard
  cases hrepeats : repeats answers k with
  | false => simp [hrepeats, hk, Except.toOption]
  | true => simp [hrepeats]

/-- The reports of a query are added to those before. -/
theorem push_eq_append_heard (hk : answers k = .ok s) (reports : Array Report) :
    (if isNews (preceding answers k) s then reports.push ⟨k * p.period millisecond, s⟩
      else reports) = reports ++ (p.heard millisecond answers [k]).toArray := by
  rw [heard_of_ok hk]
  split
  · exact Array.push_eq_append
  · exact Array.append_empty.symm

/-! ## The loop -/

/-- A query with whose answer polling ends is the last one. -/
theorem loop_of_ends (h : 0 < millisecond) {remaining : Nat}
    (hremaining : k + remaining = p.rounds millisecond) (reports : Array Report)
    (times : Array Nat) (hk : p.Ends millisecond (answer query pass a) k) :
    p.loop query pass remaining (k * p.period millisecond) (preceding (answer query pass a) k)
        reports times (pass^[k] a) millisecond =
      ⟨reports ++ (p.heard millisecond (answer query pass a) [k]).toArray,
        times.push (k * p.period millisecond), p.verdict millisecond (answer query pass a k),
        pass^[k] a⟩ := by
  unfold loop verdict
  cases hanswer : answer query pass a k with
  | error e =>
    have hquery : query (pass^[k] a) = .error e := hanswer
    rw [hquery, heard_of_error hanswer]
    simp
  | ok s =>
    have hquery : query (pass^[k] a) = .ok s := hanswer
    rw [hquery, ← push_eq_append_heard hanswer]
    dsimp only
    split
    · rfl
    · next hopen =>
      -- neither an error nor final: so the deadline has passed, and there are no rounds to go
      have hpassed : p.deadline ≤ k * p.period millisecond := by
        rcases hk with ⟨e, he⟩ | ⟨t, ht, hterminal⟩ | hpassed
        · rw [hanswer] at he
          cases he
        · rw [hanswer] at ht
          cases ht
          exact absurd hterminal hopen
        · exact hpassed
      have hover := (rounds_le_iff h).2 hpassed
      obtain rfl : remaining = 0 := by omega
      rfl

/-- A query with whose answer polling does not end is followed by another one. -/
theorem loop_of_not_ends (h : 0 < millisecond) (remaining : Nat) (reports : Array Report)
    (times : Array Nat) (hk : ¬ p.Ends millisecond (answer query pass a) k) :
    p.loop query pass (remaining + 1) (k * p.period millisecond)
        (preceding (answer query pass a) k) reports times (pass^[k] a) millisecond =
      p.loop query pass remaining ((k + 1) * p.period millisecond)
        (preceding (answer query pass a) (k + 1))
        (reports ++ (p.heard millisecond (answer query pass a) [k]).toArray)
        (times.push (k * p.period millisecond)) (pass^[k + 1] a) millisecond := by
  obtain ⟨s, hanswer, hopen, -⟩ := exists_of_not_ends h hk
  have hquery : query (pass^[k] a) = .ok s := hanswer
  have hlast : preceding (answer query pass a) (k + 1) = some s :=
    congrArg Except.toOption hanswer
  rw [hlast, ← push_eq_append_heard hanswer, Function.iterate_succ_apply', Nat.succ_mul]
  conv_lhs => unfold loop
  rw [hquery]
  dsimp only
  rw [hopen]
  rfl

/-- From a query on, polling goes on to the first one with whose answer it ends. -/
theorem loop_eq (h : 0 < millisecond)
    (hJ : IsLeast {k | p.Ends millisecond (answer query pass a) k} J) (hk : k ≤ J)
    {remaining : Nat} (hremaining : k + remaining = p.rounds millisecond)
    (reports : Array Report) (times : Array Nat) :
    p.loop query pass remaining (k * p.period millisecond) (preceding (answer query pass a) k)
        reports times (pass^[k] a) millisecond =
      ⟨reports ++
          (p.heard millisecond (answer query pass a) (List.range' k (J + 1 - k))).toArray,
        times ++ ((List.range' k (J + 1 - k)).map (· * p.period millisecond)).toArray,
        p.verdict millisecond (answer query pass a J), pass^[J] a⟩ := by
  induction remaining generalizing k reports times with
  | zero =>
    -- the rounds are over, so this is the end
    have hends : p.Ends millisecond (answer query pass a) k := by
      rw [show k = p.rounds millisecond by omega]
      exact p.ends_rounds h _
    obtain rfl : J = k := le_antisymm (hJ.2 hends) hk
    rw [loop_of_ends h hremaining reports times hends, Nat.add_sub_cancel_left]
    simp
  | succ remaining ih =>
    by_cases hends : p.Ends millisecond (answer query pass a) k
    · obtain rfl : J = k := le_antisymm (hJ.2 hends) hk
      rw [loop_of_ends h hremaining reports times hends, Nat.add_sub_cancel_left]
      simp
    · have hlt : k < J := lt_of_le_of_ne hk fun heq => hends (heq ▸ hJ.1)
      have hrange : List.range' k (J + 1 - k) = k :: List.range' (k + 1) (J + 1 - (k + 1)) := by
        rw [show J + 1 - k = J + 1 - (k + 1) + 1 by omega, List.range'_succ]
      rw [loop_of_not_ends h remaining reports times hends, ih hlt (by omega), hrange,
        heard_cons p millisecond _ k (List.range' _ _)]
      simp

/-! ## Whole runs -/

/-- Polling goes through the answers up to the first one with which it ends. -/
theorem run_eq (h : 0 < millisecond)
    (hJ : IsLeast {k | p.Ends millisecond (answer query pass a) k} J) :
    p.run query pass a millisecond =
      ⟨(p.heard millisecond (answer query pass a) (List.range (J + 1))).toArray,
        ((List.range (J + 1)).map (· * p.period millisecond)).toArray,
        p.verdict millisecond (answer query pass a J), pass^[J] a⟩ := by
  have hloop := loop_eq h hJ (Nat.zero_le J) (Nat.zero_add _) #[] #[]
  rw [Nat.zero_mul, Array.empty_append, Array.empty_append, Nat.sub_zero,
    ← List.range_eq_range'] at hloop
  exact hloop

/-- Any sequence of answers can be had, by counting the queries. -/
theorem answer_succ (answers : Nat → Except MigrationError Snapshot) :
    answer answers Nat.succ 0 = answers := by
  funext k
  have hcount : Nat.succ^[k] 0 = k := by
    induction k with
    | zero => rfl
    | succ k ih => rw [Function.iterate_succ_apply', ih]
  exact congrArg answers hcount

/-- Whatever is answered and whatever the interval and the deadline, polling asks at once and then
every interval, which is at least a millisecond. It stops with the first answer that is an error,
that is final or that comes when the deadline has passed, and there is such an answer: no more than
the intervals that it takes to fill the deadline come before it. The outcome is that error, else
that snapshot if it is final, though the deadline may have passed as well, else that the time is
over. All snapshots on the way are reported, the last one included, but those that repeat the
counters of the one before. -/
theorem stops_at_first_end (p : Polling) (query : σ → Except MigrationError Snapshot)
    (pass : σ → σ) (a : σ) {millisecond : Nat} (h : 0 < millisecond) :
    let answers := answer query pass a
    let interval := max p.interval millisecond
    let result := p.run query pass a millisecond
    ∃ J, IsLeast {k | (∃ e, answers k = .error e) ∨
          (∃ s, answers k = .ok s ∧ s.phase.isTerminal = true) ∨ p.deadline ≤ k * interval} J ∧
      result.times.toList = (List.range (J + 1)).map (· * interval) ∧
      result.times.size ≤ p.deadline ⌈/⌉ interval + 1 ∧
      (∀ e, answers J = .error e → result.outcome = .error e) ∧
      (∀ s, answers J = .ok s → s.phase.isTerminal = true → result.outcome = .ok s) ∧
      (∀ s, answers J = .ok s → s.phase.isTerminal = false →
        result.outcome = .error (.timeout p.id (p.deadline / (1000 * millisecond)))) ∧
      result.reports.toList =
        ((List.range (J + 1)).filter fun k => !repeats answers k).filterMap fun k =>
          (answers k).toOption.map fun s => ⟨k * interval, s⟩ := by
  intro answers interval result
  classical
  -- there is a first answer with which polling ends, since the rounds are over some time
  have hends : ∃ k, p.Ends millisecond answers k := ⟨_, p.ends_rounds h answers⟩
  obtain ⟨J, hJ⟩ : ∃ J, IsLeast {k | p.Ends millisecond answers k} J :=
    ⟨Nat.find hends, Nat.find_spec hends, fun k hk => Nat.find_min' hends hk⟩
  have hresult := run_eq h hJ
  have htimes : result.times.toList = (List.range (J + 1)).map (· * interval) :=
    congrArg (·.times.toList) hresult
  have houtcome : result.outcome = p.verdict millisecond (answers J) :=
    congrArg (·.outcome) hresult
  refine ⟨J, hJ, htimes, ?_, ?_, ?_, ?_, ?_⟩
  · have hlength := congrArg List.length htimes
    rw [Array.length_toList, List.length_map, List.length_range] at hlength
    have hle : J ≤ p.deadline ⌈/⌉ interval := hJ.2 (p.ends_rounds h answers)
    omega
  · intro e he
    rw [houtcome, he]
    rfl
  · intro s hs hfinal
    rw [houtcome, hs]
    exact if_pos hfinal
  · intro s hs hopen
    rw [houtcome, hs]
    exact if_neg (Bool.eq_false_iff.1 hopen)
  · exact congrArg (·.reports.toList) hresult

/-- Times are in microseconds. The fourth query comes after the deadline of four milliseconds, and
its answer is final: polling succeeds. The second answer repeats the first one and is not
reported. -/
theorem stops_at_first_end_late :
    let p : Polling := ⟨⟨1⟩, 1500, 4000⟩
    let started : Snapshot := ⟨⟨1⟩, .executing, "", ⟨0, 0⟩⟩
    let moved : Snapshot := ⟨⟨1⟩, .executing, "", ⟨0, 1⟩⟩
    let done : Snapshot := ⟨⟨1⟩, .succeeded, "", ⟨1, 1⟩⟩
    let answers : Nat → Except MigrationError Snapshot :=
      fun k => .ok (if k < 2 then started else if k = 2 then moved else done)
    let result := p.run answers Nat.succ 0 1000
    0 < 1000 ∧ result.times.toList = [0, 1500, 3000, 4500] ∧
      result.outcome = .ok done ∧
      result.reports.toList = [⟨0, started⟩, ⟨3000, moved⟩, ⟨4500, done⟩] := by
  intro p started moved done answers result
  have hmillisecond : 0 < 1000 := by decide
  obtain ⟨J, hJ, htimes, -, -, hfinal, -, hreports⟩ :=
    stops_at_first_end p answers Nat.succ 0 hmillisecond
  rw [answer_succ] at hJ hfinal hreports
  have hopen : ∀ k < 3, ∃ s, answers k = .ok s ∧ s.phase.isTerminal = false ∧
      k * 1500 < 4000 := by
    intro k hk
    interval_cases k
    · exact ⟨started, rfl, rfl, by decide⟩
    · exact ⟨started, rfl, rfl, by decide⟩
    · exact ⟨moved, rfl, rfl, by decide⟩
  obtain rfl : J = 3 := by
    refine le_antisymm (hJ.2 (.inr (.inl ⟨done, rfl, rfl⟩))) (Nat.le_of_not_lt fun hlt => ?_)
    obtain ⟨s, hs, hexecuting, hearly⟩ := hopen J hlt
    rcases hJ.1 with ⟨e, he⟩ | ⟨t, ht, hterminal⟩ | hpassed
    · rw [hs] at he
      cases he
    · rw [hs] at ht
      cases ht
      rw [hexecuting] at hterminal
      cases hterminal
    · exact absurd hpassed (Nat.not_le.2 hearly)
  exact ⟨hmillisecond, htimes, hfinal done rfl rfl, hreports⟩

end Handover.Polling
