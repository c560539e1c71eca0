import Handover.Proofs.Finality
import Mathlib.Data.List.DropRight

/-!
# The retry budget

`Client.audited` is a client that answers as another one does and keeps a record of what it answers
to updates. A pass asks for one update at most (`Migration.pass_audited_cases`), and how often a
migration is remembered to have failed is the number of setbacks since the last update that was
accepted, as a count keeps it (`Registry.Counts`): conflicts, and times when the platform was not
there. Passes that ask for no update neither count nor start the count anew. A setback is answered
with an error that gives its number as long as the budget lasts; one more ends the migration, and so
does any other error at once (`Registry.retry_budget`). Only the greatest budget lasts for ever,
since no count exceeds it (`Registry.greatest_budget_lasts`).
-/

namespace Handover

variable {σ : Type}

/-! ## Answers to updates -/

/-- What a client answers to an update. -/
abbrev UpdateAnswer :=
  Except PlatformError Workload

namespace UpdateAnswer

/-- Whether an update failed in a way that may pass: the object has changed since it was read, or
the platform is not there. -/
def isSetback : UpdateAnswer → Bool
  | .error (.conflict ..) | .error (.unavailable _) => true
  | .error (.notFound _) | .error (.alreadyExists _) | .error (.invalid _) | .ok _ => false

theorem isSetback_error (e : PlatformError) : isSetback (.error e) = e.retryable := by
  cases e <;> rfl

/-- The number of setbacks since the last update that was accepted. -/
def setbacks (answers : List UpdateAnswer) : Nat :=
  (answers.rtakeWhile fun a => !a.isOk).countP isSetback

variable (past : List UpdateAnswer)

/-- An update that is accepted starts the count anew. -/
theorem setbacks_concat_ok (written : Workload) : setbacks (past ++ [.ok written]) = 0 := by
  unfold setbacks
  rw [List.rtakeWhile_concat_neg _ _ _ (by simp [Except.isOk, Except.toBool])]
  rfl

/-- An update that fails counts if it is a setback. -/
theorem setbacks_concat_error (e : PlatformError) :
    setbacks (past ++ [.error e]) = setbacks past + if e.retryable then 1 else 0 := by
  unfold setbacks
  rw [List.rtakeWhile_concat_pos _ _ _ (by simp [Except.isOk, Except.toBool]), List.countP_append,
    List.countP_singleton, isSetback_error]

theorem setbacks_replicate {e : PlatformError} (hretryable : e.retryable = true) (k : Nat) :
    setbacks (List.replicate k (.error e)) = k := by
  induction k with
  | zero => rfl
  | succ k ih => rw [List.replicate_succ', setbacks_concat_error, ih, if_pos hretryable]

end UpdateAnswer

open UpdateAnswer (isSetback setbacks)

/-- The client that answers as another one does and keeps a record of its answers to updates. -/
def Client.audited (client : Client σ) : Client (σ × List UpdateAnswer) where
  get r s := ((client.get r s.1).1, (client.get r s.1).2, s.2)
  create w s := ((client.create w s.1).1, (client.create w s.1).2, s.2)
  update w s :=
    ((client.update w s.1).1, (client.update w s.1).2, s.2 ++ [(client.update w s.1).1])
  delete r propagation s :=
    ((client.delete r propagation s.1).1, (client.delete r propagation s.1).2, s.2)
  watch kind s := ((client.watch kind s.1).1, (client.watch kind s.1).2, s.2)
  receive r s := client.receive r s.1

/-! ## One pass -/

namespace Migration

theorem readBoth_audited (client : Client σ) (m : Migration) (s : σ) (past : List UpdateAnswer) :
    m.readBoth client.audited (s, past) =
      ((m.readBoth client s).1, (m.readBoth client s).2, past) := by
  unfold readBoth
  simp only [Client.audited]
  rcases client.get m.src s with ⟨e | src, t⟩
  · rfl
  · dsimp only
    rcases client.get m.dst t with ⟨e | dst, u⟩ <;> rfl

/-- The verdict on the answer to the update of an object. -/
def judge (m : Migration) (limit : Nat) (side : Side) (n : Int) (object : Workload) :
    UpdateAnswer → Verdict
  | .ok written => .landed side n written.metadata.generation
  | .error e => m.onWriteError limit object.ref e

/-- All that a pass can do, with the answers that it gets to updates: it settles without one, or it
judges the answer to a single one. -/
theorem pass_audited_cases (client : Client σ) (limit now : Nat) (m : Migration) (s : σ) :
    (∃ v t, v.isWriteless = true ∧ m.pass client limit now s = (v, t) ∧
      m.pass client.audited limit now (s, []) = (v, t, [])) ∨
    ∃ side n object answer t, m.pass client limit now s = (m.judge limit side n object answer, t) ∧
      m.pass client.audited limit now (s, []) =
        (m.judge limit side n object answer, t, [answer]) := by
  cases hopen : m.isOpen now with
  | false =>
    -- nobody is called, so the record is empty
    obtain ⟨v, hv, -, hpass⟩ := pass_of_not_isOpen hopen
    exact .inl ⟨v, s, hv, hpass client limit s, hpass client.audited limit (s, [])⟩
  | true =>
    rw [pass_of_isOpen hopen, pass_of_isOpen hopen, readBoth_audited]
    rcases hread : m.readBoth client s with ⟨e | ⟨src, dst⟩, t⟩
    · exact .inl ⟨_, t, rfl, rfl, rfl⟩
    · dsimp only
      rw [proceed_eq, proceed_eq]
      cases hintent : m.intent src dst with
      | settle v => exact .inl ⟨v, t, isWriteless_of_intent hintent, rfl, rfl⟩
      | write side n =>
        refine .inr ⟨side, n, side.pick src dst, ?_⟩
        dsimp only
        rw [move_eq, move_eq]
        simp only [Client.audited]
        rcases client.update ((side.pick src dst).moved side n) t with ⟨e | written, u⟩
        · exact ⟨.error e, u, rfl, rfl⟩
        · exact ⟨.ok written, u, rfl, rfl⟩

/-- A verdict without a write is answered well and leaves the number of failures. -/
theorem of_isWriteless {v : Verdict} (hv : v.isWriteless = true) (m : Migration) (now : Nat) :
    v.answer = .ok () ∧ (m.conclude now v).writeFailures = m.writeFailures := by
  cases v with
  | unchanged => exact ⟨rfl, rfl⟩
  | succeeded => exact ⟨rfl, rfl⟩
  | failed cause =>
    cases cause with
    | exhausted attempt e => cases hv
    | _ => exact ⟨rfl, rfl⟩
  | landed side n generation => cases hv
  | refused e => cases hv

/-- A write that lands leaves a migration executing, without failures. -/
theorem of_landed (m : Migration) (now : Nat) (side : Side) (n generation : Int) :
    (m.conclude now (.landed side n generation)).ending = m.ending ∧
      (m.conclude now (.landed side n generation)).writeFailures = 0 := by
  cases side <;> exact ⟨rfl, rfl⟩

/-- A setback within the budget leaves a migration executing, with one failure more, and is answered
with an error that has its number. -/
theorem of_setback {m : Migration} {limit : Nat} {e : PlatformError}
    (hretryable : e.retryable = true) (hbudget : keptCount (m.writeFailures + 1) ≤ limit)
    (now : Nat) (r : ResourceRef) :
    (m.onWriteError limit r e).answer = .error ⟨r, keptCount (m.writeFailures + 1), e⟩ ∧
      (m.conclude now (m.onWriteError limit r e)).ending = m.ending ∧
      (m.conclude now (m.onWriteError limit r e)).writeFailures =
        keptCount (m.writeFailures + 1) := by
  have hverdict : m.onWriteError limit r e = .refused ⟨r, keptCount (m.writeFailures + 1), e⟩ := by
    unfold onWriteError
    rw [if_pos hretryable]
    exact if_neg (Nat.not_lt.2 hbudget)
  rw [hverdict]
  exact ⟨rfl, rfl, rfl⟩

/-- A setback beyond the budget ends an executing migration. -/
theorem of_exhausted {m : Migration} {limit : Nat} {e : PlatformError}
    (hexecuting : m.ending = none) (hretryable : e.retryable = true)
    (hspent : limit < keptCount (m.writeFailures + 1)) (now : Nat) (r : ResourceRef) :
    (m.onWriteError limit r e).answer = .ok () ∧
      (m.conclude now (m.onWriteError limit r e)).ending =
        some
          ⟨false, (FailureCause.exhausted (keptCount (m.writeFailures + 1)) e).message, now⟩ := by
  have hverdict :
      m.onWriteError limit r e = .failed (.exhausted (keptCount (m.writeFailures + 1)) e) := by
    unfold onWriteError
    rw [if_pos hretryable]
    exact if_pos hspent
  rw [hverdict, conclude_of_ending hexecuting rfl]
  exact ⟨rfl, rfl⟩

/-- Any other error of a write ends an executing migration at once. -/
theorem of_fatal {m : Migration} {e : PlatformError} (hexecuting : m.ending = none)
    (hfatal : e.retryable = false) (limit now : Nat) (r : ResourceRef) :
    (m.onWriteError limit r e).answer = .ok () ∧
      (m.conclude now (m.onWriteError limit r e)).ending = some ⟨false, e.message, now⟩ := by
  have hverdict : m.onWriteError limit r e = .failed (.platform e) := by
    unfold onWriteError
    rw [if_neg (by simp [hfatal])]
  rw [hverdict, conclude_of_ending hexecuting rfl]
  exact ⟨rfl, rfl⟩

end Migration

/-! ## What a pass spends -/

/-- What comes of a pass over an executing migration that counts some setbacks since the last update
that was accepted, and will give the next one a number: the answers that the pass gets to updates,
its own answer, and the migration after it. Without an update the count stays. A setback within the
budget is an error with its number; one more, or another error, ends the migration. -/
inductive Outcome (limit count attempt now : Nat) :
    List UpdateAnswer → Except WriteError Unit → Migration → Prop
  | idle (t : Migration) (hcount : t.writeFailures = count) :
      Outcome limit count attempt now [] (.ok ()) t
  | accepted (written : Workload) (t : Migration) (hexecuting : t.isTerminal = false)
      (hcount : t.writeFailures = 0) : Outcome limit count attempt now [.ok written] (.ok ()) t
  | setback (r : ResourceRef) (e : PlatformError) (t : Migration)
      (hsetback : isSetback (.error e) = true) (hbudget : attempt ≤ limit)
      (hexecuting : t.isTerminal = false) (hcount : t.writeFailures = attempt) :
      Outcome limit count attempt now [.error e] (.error ⟨r, attempt, e⟩) t
  | exhausted (e : PlatformError) (t : Migration) (hsetback : isSetback (.error e) = true)
      (hbudget : limit < attempt)
      (hending : t.ending = some ⟨false, (FailureCause.exhausted attempt e).message, now⟩) :
      Outcome limit count attempt now [.error e] (.ok ()) t
  | fatal (e : PlatformError) (t : Migration) (hfatal : isSetback (.error e) = false)
      (hending : t.ending = some ⟨false, e.message, now⟩) :
      Outcome limit count attempt now [.error e] (.ok ()) t

/-- A migration that is executing after a pass has had as many setbacks as it counts, and its budget
has lasted, but that a count may come to its end before the greatest budget does. -/
theorem Outcome.count_eq {limit now : Nat} {past answers : List UpdateAnswer}
    {answer : Except WriteError Unit} {t : Migration}
    (h : Outcome limit (keptCount (setbacks past)) (keptCount (setbacks past + 1)) now answers
      answer t)
    (hexecuting : t.isTerminal = false) (hbudget : limit < maxCount → setbacks past ≤ limit) :
    t.writeFailures = keptCount (setbacks (past ++ answers)) ∧
      (limit < maxCount → setbacks (past ++ answers) ≤ limit) := by
  rw [Migration.isTerminal_eq_false_iff] at hexecuting
  cases h with
  | idle _ hcount =>
    -- a pass without an update leaves both counts
    rw [List.append_nil]
    exact ⟨hcount, hbudget⟩
  | accepted written _ _ hcount =>
    rw [UpdateAnswer.setbacks_concat_ok]
    exact ⟨hcount, fun _ => Nat.zero_le limit⟩
  | setback r e _ hsetback hattempt _ hcount =>
    rw [UpdateAnswer.isSetback_error] at hsetback
    rw [UpdateAnswer.setbacks_concat_error, if_pos hsetback]
    refine ⟨hcount, fun hlimit => ?_⟩
    have hle := hbudget hlimit
    rwa [keptCount_of_le (by omega)] at hattempt
  | exhausted e _ _ _ hending =>
    -- the migration would have ended
    rw [hexecuting] at hending
    cases hending
  | fatal e _ _ hending =>
    rw [hexecuting] at hending
    cases hending

namespace Migration

/-- A pass over an executing migration comes to one of the outcomes, and to keep a record of the
answers that it gets changes nothing. -/
theorem outcome_pass {m : Migration} (hexecuting : m.isTerminal = false) (client : Client σ)
    (limit now : Nat) (s : σ) :
    ∃ v t answers, m.pass client limit now s = (v, t) ∧
      m.pass client.audited limit now (s, []) = (v, t, answers) ∧
      Outcome limit m.writeFailures (keptCount (m.writeFailures + 1)) now answers v.answer
        (m.conclude now v) := by
  have hnone := isTerminal_eq_false_iff.1 hexecuting
  rcases pass_audited_cases client limit now m s with
    ⟨v, t, hv, hpass, haudited⟩ | ⟨side, n, object, answer, t, hpass, haudited⟩
  · refine ⟨v, t, [], hpass, haudited, ?_⟩
    obtain ⟨hanswer, hcount⟩ := of_isWriteless hv m now
    rw [hanswer]
    exact .idle _ hcount
  · refine ⟨_, t, [answer], hpass, haudited, ?_⟩
    cases answer with
    | ok written =>
      obtain ⟨hending, hcount⟩ := m.of_landed now side n written.metadata.generation
      rw [hnone, ← isTerminal_eq_false_iff] at hending
      exact .accepted written _ hending hcount
    | error e =>
      show Outcome limit _ _ now [.error e] (m.onWriteError limit object.ref e).answer
        (m.conclude now (m.onWriteError limit object.ref e))
      cases hretryable : e.retryable with
      | false =>
        obtain ⟨hanswer, hending⟩ := of_fatal hnone hretryable limit now object.ref
        rw [hanswer]
        exact .fatal e _ (by rw [UpdateAnswer.isSetback_error, hretryable]) hending
      | true =>
        have hsetback : isSetback (.error e) = true := by
          rw [UpdateAnswer.isSetback_error, hretryable]
        rcases Nat.lt_or_ge limit (keptCount (m.writeFailures + 1)) with hspent | hbudget
        · obtain ⟨hanswer, hending⟩ := of_exhausted hnone hretryable hspent now object.ref
          rw [hanswer]
          exact .exhausted e _ hsetback hspent hending
        · obtain ⟨hanswer, hending, hcount⟩ := of_setback hretryable hbudget now object.ref
          rw [hnone, ← isTerminal_eq_false_iff] at hending
          rw [hanswer]
          exact .setback object.ref e _ hsetback hbudget hending hcount

end Migration

/-! ## Events -/

namespace Registry

/-- The answers to updates that a client gives in an event, to a pass over a migration. -/
def updateAnswers (client : Client σ) (limit : Nat) (id : MigrationId) (g : Registry) :
    Event σ → List UpdateAnswer
  | .pass now other s =>
    if other = id then (g.reconcile client.audited limit now id (s, [])).2.2.2 else []
  | .finish .. | .prune .. => []

/-- The answers to updates that a client gives over some events, to passes over a migration. -/
def allUpdateAnswers (client : Client σ) (limit : Nat) (id : MigrationId) (g : Registry) :
    List (Event σ) → List UpdateAnswer
  | [] => []
  | e :: events =>
    g.updateAnswers client limit id e ++
      (g.next client limit e).allUpdateAnswers client limit id events

variable {g : Registry} {id : MigrationId} {m : Migration} {client : Client σ} {limit : Nat}
  {past : List UpdateAnswer}

/-- A pass over an executing migration comes to one of the outcomes, whether a record is kept of the
answers or not. -/
theorem outcome_reconcile (hm : g.get? id = some m) (hexecuting : m.isTerminal = false)
    (client : Client σ) (limit now : Nat) (s : σ) :
    ∃ answer f u answers t, g.reconcile client limit now id s = (answer, f, u) ∧
      g.reconcile client.audited limit now id (s, []) = (answer, f, u, answers) ∧
      f.get? id = some t ∧
      Outcome limit m.writeFailures (keptCount (m.writeFailures + 1)) now answers answer t := by
  obtain ⟨v, u, answers, hpass, haudited, houtcome⟩ :=
    Migration.outcome_pass hexecuting client limit now s
  have hget : (g.record id now v).get? id = some (m.conclude now v) := by
    rw [get?_record, if_pos rfl, hm, Option.map_some]
  exact ⟨v.answer, g.record id now v, u, answers, m.conclude now v, reconcile_of_pass hm hpass,
    reconcile_of_pass hm haudited, hget, houtcome⟩

/-- A pass that is answered with an error is over an executing migration and leaves it executing,
with one failure more, and within the budget. -/
theorem of_reconcile_eq_error {now : Nat} {s : σ} {w : WriteError}
    (h : (g.reconcile client limit now id s).1 = .error w) :
    ∃ m t, g.get? id = some m ∧ m.isTerminal = false ∧
      (g.reconcile client limit now id s).2.1.get? id = some t ∧ t.isTerminal = false ∧
      t.writeFailures = keptCount (m.writeFailures + 1) ∧ t.writeFailures ≤ limit := by
  cases hm : g.get? id with
  | none =>
    rw [reconcile_of_get?_eq_none hm] at h
    cases h
  | some m =>
    cases hterminal : m.isTerminal with
    | true =>
      rw [reconcile_of_isTerminal hm hterminal] at h
      cases h
    | false =>
      obtain ⟨answer, f, u, answers, t, hpass, -, hget, houtcome⟩ :=
        outcome_reconcile hm hterminal client limit now s
      rw [hpass] at h ⊢
      obtain rfl : answer = .error w := h
      cases houtcome with
      | setback r e _ _ hbudget hexecuting hcount =>
        exact ⟨m, t, rfl, hterminal, hget, hexecuting, hcount, hcount ▸ hbudget⟩

/-- Below the greatest budget, a pass that leaves a migration executing leaves a count that has not
come to its end. -/
theorem writeFailures_lt_of_reconcile {now : Nat} {s : σ} {t : Migration}
    (hlimit : limit < maxCount)
    (hbefore : ∀ m, g.get? id = some m → m.isTerminal = false → m.writeFailures < maxCount)
    (ht : (g.reconcile client limit now id s).2.1.get? id = some t)
    (hexecuting : t.isTerminal = false) : t.writeFailures < maxCount := by
  cases hm : g.get? id with
  | none =>
    -- a pass makes nothing known
    rw [reconcile_of_get?_eq_none hm, hm] at ht
    cases ht
  | some m =>
    cases hterminal : m.isTerminal with
    | true =>
      rw [reconcile_of_isTerminal hm hterminal, hm] at ht
      cases ht
      exact absurd hexecuting (by simp [hterminal])
    | false =>
      obtain ⟨answer, f, u, answers, t', hpass, -, hget, houtcome⟩ :=
        outcome_reconcile hm hterminal client limit now s
      rw [hpass, hget] at ht
      cases ht
      rw [Migration.isTerminal_eq_false_iff] at hexecuting
      cases houtcome with
      | idle _ hcount => exact hcount ▸ hbefore m hm hterminal
      | accepted _ _ _ hcount => exact hcount ▸ Nat.succ_pos _
      | setback _ _ _ _ hbudget _ hcount => exact hcount ▸ Nat.lt_of_le_of_lt hbudget hlimit
      | exhausted _ _ _ _ hending => rw [hexecuting] at hending; cases hending
      | fatal _ _ _ hending => rw [hexecuting] at hending; cases hending

theorem updateAnswers_pass (g : Registry) (client : Client σ) (limit now : Nat) (id : MigrationId)
    (s : σ) : g.updateAnswers client limit id (.pass now id s) =
      (g.reconcile client.audited limit now id (s, [])).2.2.2 :=
  if_pos rfl

/-- An executing migration has had as many setbacks as it counts, and its budget has lasted, if it
is not the greatest one. -/
def Counts (g : Registry) (limit : Nat) (id : MigrationId) (past : List UpdateAnswer) : Prop :=
  ∀ m, g.get? id = some m → m.isTerminal = false →
    m.writeFailures = keptCount (setbacks past) ∧ (limit < maxCount → setbacks past ≤ limit)

theorem Counts.next (h : g.Counts limit id past) (client : Client σ) (e : Event σ) :
    (g.next client limit e).Counts limit id (past ++ g.updateAnswers client limit id e) := by
  intro t ht hexecuting
  -- whatever is executing after the event was executing before
  obtain ⟨m, hm, hm_executing⟩ : g.Executing id := by
    by_contra hnot
    exact not_executing_next hnot e ⟨t, ht, hexecuting⟩
  obtain ⟨hcount, hbudget⟩ := h m hm hm_executing
  cases e with
  | pass now other s =>
    by_cases hid : other = id
    · subst hid
      obtain ⟨answer, f, u, answers, t', hpass, haudited, hget, houtcome⟩ :=
        outcome_reconcile hm hm_executing client limit now s
      have ht : (g.reconcile client limit now other s).2.1.get? other = some t := ht
      rw [hpass, hget] at ht
      obtain rfl := Option.some.inj ht
      rw [updateAnswers_pass, haudited]
      rw [hcount, keptCount_keptCount_add] at houtcome
      exact houtcome.count_eq hexecuting hbudget
    · have ht : (g.reconcile client limit now other s).2.1.get? id = some t := ht
      rw [get?_reconcile, if_neg (Ne.symm hid), hm] at ht
      obtain rfl := Option.some.inj ht
      rw [updateAnswers, if_neg hid, List.append_nil]
      exact ⟨hcount, hbudget⟩
  | finish other ending =>
    have ht : (g.finish other ending).2.get? id = some t := ht
    obtain ⟨-, hget⟩ := of_get?_finish ht hexecuting
    obtain rfl := Option.some.inj (hm.symm.trans hget)
    rw [updateAnswers, List.append_nil]
    exact ⟨hcount, hbudget⟩
  | prune policy later =>
    have ht : (g.prune policy later).2.get? id = some t := ht
    obtain rfl := Option.some.inj (hm.symm.trans (get?_of_get?_prune ht))
    rw [updateAnswers, List.append_nil]
    exact ⟨hcount, hbudget⟩

theorem Counts.afterEvents (h : g.Counts limit id past) (client : Client σ)
    (events : List (Event σ)) : (g.afterEvents client limit events).Counts limit id
      (past ++ g.allUpdateAnswers client limit id events) := by
  induction events generalizing g past with
  | nil => rwa [allUpdateAnswers, List.append_nil]
  | cons e events ih =>
    rw [allUpdateAnswers, ← List.append_assoc]
    exact ih (h.next client e)

/-- Over any events after a migration was known without failures: while it is executing, a pass over
it comes to one of the outcomes for the setbacks since the last update that was accepted, as a count
keeps them. Unless the budget is the greatest one, there were at most as many as it allows, so they
are counted as they are. A pass over a migration that is not executing asks for no update and is
answered well. To keep a record of the answers changes nothing. -/
theorem retry_budget (client : Client σ) (limit : Nat) (hm : g.get? id = some m)
    (hfresh : m.writeFailures = 0) (events : List (Event σ)) (now : Nat) (s : σ) :
    let f := g.afterEvents client limit events
    let count := setbacks (g.allUpdateAnswers client limit id events)
    (f.Executing id → ∃ answer r u answers t,
      f.reconcile client limit now id s = (answer, r, u) ∧
        f.reconcile client.audited limit now id (s, []) = (answer, r, u, answers) ∧
        r.get? id = some t ∧
        Outcome limit (keptCount count) (keptCount (count + 1)) now answers answer t ∧
        (limit < maxCount →
          count ≤ limit ∧ Outcome limit count (count + 1) now answers answer t)) ∧
    (¬ f.Executing id → f.reconcile client limit now id s = (.ok (), f, s) ∧
      f.reconcile client.audited limit now id (s, []) = (.ok (), f, s, [])) := by
  intro f count
  have hstart : g.Counts limit id [] := fun t ht _ => by
    obtain rfl := Option.some.inj (hm.symm.trans ht)
    exact ⟨hfresh, fun _ => Nat.zero_le limit⟩
  have hcounts : f.Counts limit id (g.allUpdateAnswers client limit id events) :=
    hstart.afterEvents client events
  refine ⟨fun ⟨t, ht, hexecuting⟩ => ?_, fun hnot => ?_⟩
  · obtain ⟨hcount, hbudget⟩ := hcounts t ht hexecuting
    obtain ⟨answer, r, u, answers, t', hpass, haudited, hget, houtcome⟩ :=
      outcome_reconcile ht hexecuting client limit now s
    rw [hcount, keptCount_keptCount_add] at houtcome
    refine ⟨answer, r, u, answers, t', hpass, haudited, hget, houtcome, fun hlimit => ?_⟩
    have hle : count ≤ limit := hbudget hlimit
    -- below the greatest budget no count comes to its end
    rw [keptCount_of_le (by omega), keptCount_of_le (by omega)] at houtcome
    exact ⟨hle, houtcome⟩
  · cases ht : f.get? id with
    | none =>
      exact ⟨reconcile_of_get?_eq_none ht client limit now s,
        reconcile_of_get?_eq_none ht client.audited limit now (s, [])⟩
    | some t =>
      have hterminal : t.isTerminal = true := by
        by_contra hexecuting
        exact hnot ⟨t, ht, Bool.eq_false_iff.2 hexecuting⟩
      exact ⟨reconcile_of_isTerminal ht hterminal client limit now s,
        reconcile_of_isTerminal ht hterminal client.audited limit now (s, [])⟩

/-- With a budget of one setback: a conflict, a pass that waits, a write that lands, the platform
not being there, and a pass that waits again leave a count of one, so the next conflict ends the
migration. -/
theorem retry_budget_of_one :
    let web : ResourceRef := .of .deployment "default" "web"
    let webCs : ResourceRef := .of .cloneSet "default" "web-cs"
    let m : Migration := .start ⟨7⟩ web webCs .deploymentToCloneSet ⟨2, 1, none⟩ ⟨1, 1⟩ 0
    let g := Registry.empty.register m
    let filled := ((Platform.empty 4).put
      ((Workload.named .deployment "default" "web").withReplicas (some 2))).2.put
      (Workload.named .cloneSet "default" "web-cs")
    let unseen := filled.2
    let p := unseen.settleAll.2
    let q := (g.reconcile Platform.client 1 30 ⟨7⟩ p).2.2.settleAll.2
    let conflict : PlatformError := .conflict webCs 1 2
    let events : List (Event Platform) :=
      [.pass 10 ⟨7⟩ (p.failNextUpdates conflict 1), .pass 20 ⟨7⟩ unseen, .pass 30 ⟨7⟩ p,
        .pass 40 ⟨7⟩ (q.failNextUpdates (.unavailable "down") 1), .pass 50 ⟨7⟩ unseen]
    let f := g.afterEvents Platform.client 1 events
    g.get? ⟨7⟩ = some m ∧ m.writeFailures = 0 ∧ f.Executing ⟨7⟩ ∧
      setbacks (g.allUpdateAnswers Platform.client 1 ⟨7⟩ events) = 1 ∧
      ∃ r u t,
        f.reconcile Platform.client 1 60 ⟨7⟩ (q.failNextUpdates conflict 1) = (.ok (), r, u) ∧
        r.get? ⟨7⟩ = some t ∧
        t.ending = some ⟨false, (FailureCause.exhausted 2 conflict).message, 60⟩ := by
  intro web webCs m g filled unseen p q conflict events f
  have hm : g.get? ⟨7⟩ = some m := rfl
  have hexecuting : f.Executing ⟨7⟩ := by
    have hcount : (f.get? ⟨7⟩).map (·.isTerminal) = some false := by decide +kernel
    exact Option.map_eq_some_iff.1 hcount
  have hcount : setbacks (g.allUpdateAnswers Platform.client 1 ⟨7⟩ events) = 1 := by
    decide +kernel
  obtain ⟨answer, r, u, answers, t, hpass, haudited, hget, -, hcounted⟩ :=
    (retry_budget Platform.client 1 hm rfl events 60 (q.failNextUpdates conflict 1)).1 hexecuting
  have hanswers : ((g.afterEvents Platform.client 1 events).reconcile Platform.client.audited 1 60
      ⟨7⟩ (q.failNextUpdates conflict 1, [])).2.2.2 = [.error conflict] := by decide +kernel
  rw [haudited] at hanswers
  obtain rfl : answers = [.error conflict] := hanswers
  obtain ⟨-, houtcome⟩ := hcounted (by decide)
  rw [hcount] at houtcome
  refine ⟨hm, rfl, hexecuting, hcount, r, u, t, ?_⟩
  cases houtcome with
  | setback _ _ _ _ hbudget => exact absurd hbudget (by decide)
  | exhausted _ _ _ _ hending => exact ⟨hpass, hget, hending⟩
  | fatal _ _ hfatal => cases hfatal

/-! ## The greatest budget -/

/-- Registries that differ in a count, and an event that does nothing but to count a setback: over
any number of such events the count goes on, as far as it is kept. -/
theorem afterEvents_replicate {family : Nat → Registry} {event : Event σ} {e : PlatformError}
    (hnext : ∀ n, (family n).next client limit event = family (keptCount (n + 1)))
    (hanswers : ∀ n, (family n).updateAnswers client limit id event = [.error e]) (k : Nat)
    {n : Nat} (hn : n ≤ maxCount) :
    (family n).afterEvents client limit (List.replicate k event) = family (keptCount (n + k)) ∧
      (family n).allUpdateAnswers client limit id (List.replicate k event) =
        List.replicate k (.error e) := by
  induction k generalizing n with
  | zero =>
    rw [Nat.add_zero, keptCount_of_le hn]
    exact ⟨rfl, rfl⟩
  | succ k ih =>
    obtain ⟨hafter, hall⟩ := ih (keptCount_le_maxCount (n + 1))
    rw [keptCount_keptCount_add, Nat.add_right_comm, Nat.add_assoc] at hafter
    constructor
    · show ((family n).next client limit event).afterEvents client limit _ = _
      rw [hnext, hafter]
    · rw [List.replicate_succ, allUpdateAnswers, hnext, hanswers, hall]
      rfl

/-- The greatest budget is never spent: after more setbacks than it allows the migration is still
executing, and as its count has come to its end and started again, the next setback is answered as
if it were the first. And a migration that had a failed write before its first pass is answered with
one more. -/
theorem greatest_budget_lasts :
    let web : ResourceRef := .of .deployment "default" "web"
    let webCs : ResourceRef := .of .cloneSet "default" "web-cs"
    let m : Migration := .start ⟨7⟩ web webCs .deploymentToCloneSet ⟨2, 1, none⟩ ⟨1, 1⟩ 0
    let counting (failures : Nat) := Registry.empty.register (m.withWriteFailures failures)
    let filled := ((Platform.empty 4).put
      ((Workload.named .deployment "default" "web").withReplicas (some 2))).2.put
      (Workload.named .cloneSet "default" "web-cs")
    let failing := filled.2.settleAll.2.failNextUpdates (.unavailable "down") 1
    let events := List.replicate (maxCount + 1) (.pass 10 ⟨7⟩ failing)
    let f := (counting 0).afterEvents Platform.client maxCount events
    setbacks ((counting 0).allUpdateAnswers Platform.client maxCount ⟨7⟩ events) = maxCount + 1 ∧
      f.Executing ⟨7⟩ ∧
      (f.reconcile Platform.client maxCount 20 ⟨7⟩ failing).1 =
        .error ⟨webCs, 1, .unavailable "down"⟩ ∧
      ((counting 1).reconcile Platform.client 5 20 ⟨7⟩ failing).1 =
        .error ⟨webCs, 2, .unavailable "down"⟩ := by
  intro web webCs m counting filled failing events f
  let down : PlatformError := .unavailable "down"
  have hget (n : Nat) : (counting n).get? ⟨7⟩ = some (m.withWriteFailures n) := rfl
  -- how often a migration has failed has a part only in the verdict on the next failure
  have hverdict (n limit now : Nat) :
      ((m.withWriteFailures n).pass Platform.client limit now failing).1 =
        (m.withWriteFailures n).onWriteError limit webCs down := by rfl
  have hanswers (n : Nat) : (counting n).updateAnswers Platform.client maxCount ⟨7⟩
      (.pass 10 ⟨7⟩ failing) = [.error down] := by rfl
  have hrefused {n limit : Nat} (hbudget : keptCount (n + 1) ≤ limit) (now : Nat) :
      ((m.withWriteFailures n).pass Platform.client limit now failing).1 =
        .refused ⟨webCs, keptCount (n + 1), down⟩ :=
    (hverdict n limit now).trans (if_neg (Nat.not_lt.2 hbudget))
  have hnext (n : Nat) : (counting n).next Platform.client maxCount (.pass 10 ⟨7⟩ failing) =
      counting (keptCount (n + 1)) := by
    show ((counting n).reconcile Platform.client maxCount 10 ⟨7⟩ failing).2.1 = _
    rw [reconcile_eq_record (hget n), hrefused (keptCount_le_maxCount _)]
    rfl
  obtain ⟨hafter, hall⟩ := afterEvents_replicate hnext hanswers (maxCount + 1) (Nat.zero_le _)
  have hf : f = counting 0 := hafter
  refine ⟨?_, ⟨_, congrArg (·.get? ⟨7⟩) hf, rfl⟩, ?_, ?_⟩
  · rw [hall, UpdateAnswer.setbacks_replicate rfl]
  · rw [hf, reconcile_eq_record (hget 0), hrefused (by decide)]
    rfl
  · rw [reconcile_eq_record (hget 1), hrefused (by decide)]
    rfl

end Registry

end Handover
