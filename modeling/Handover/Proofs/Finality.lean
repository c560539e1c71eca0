import Handover.Proofs.Pass.Counters
import Handover.Proofs.Registry.Exclusive

/-!
# Endings are final

Passes over any migrations, attempts to end one, and eviction may come in any order
(`Registry.Event`), one after the other; each pass has its own time and finds the client, which is
arbitrary, in a state of its own. An attempt succeeds just when its migration is known and
executing, and the migration has ended then. So at most one attempt to end a migration succeeds, and
what is known of the migration after it stays word for word until it is evicted
(`Registry.ending_is_final`).
-/

namespace Handover

variable {σ : Type}

/-! ## What ends a migration -/

theorem append_ne_of_left {a b : String} (h : a ≠ "") : a ++ b ≠ "" :=
  fun heq => h (String.append_eq_empty_iff.1 heq).1

theorem append_ne_of_right {a b : String} (h : b ≠ "") : a ++ b ≠ "" :=
  fun heq => h (String.append_eq_empty_iff.1 heq).2

/-- Every platform error has something to say. -/
theorem PlatformError.message_ne (e : PlatformError) : e.message ≠ "" := by
  cases e with
  | notFound ref => exact append_ne_of_right (by decide)
  | alreadyExists ref => exact append_ne_of_right (by decide)
  | conflict ref expected actual => exact append_ne_of_right (by decide)
  | invalid reason => exact append_ne_of_left (by decide)
  | unavailable reason => exact append_ne_of_left (by decide)

/-- Every cause of failure has something to say. -/
theorem FailureCause.message_ne (cause : FailureCause) : cause.message ≠ "" := by
  cases cause with
  | timedOut milliseconds => exact append_ne_of_right (by decide)
  | platform e => exact e.message_ne
  | scaleOutOfRange ref amount => exact append_ne_of_right (by decide)
  | scaleInOfRange ref amount => exact append_ne_of_right (by decide)
  | exhausted attempt e => exact append_ne_of_right e.message_ne

namespace Migration

variable {m : Migration} {client : Client σ} {limit now : Nat} {s : σ}

/-- A verdict leaves an executing migration ended just if it says so. -/
theorem isTerminal_conclude_iff (hexecuting : m.isTerminal = false) (now : Nat) (v : Verdict) :
    (m.conclude now v).isTerminal = true ↔ v.ending? now ≠ none := by
  rw [isTerminal_eq_false_iff] at hexecuting
  unfold isTerminal
  rw [Option.isSome_iff_ne_none, Ne, ending_conclude_eq_none_iff, hexecuting]
  simp

/-- A pass that plans from two objects finds the migration complete only at the target. -/
theorem of_proceed_succeeded {src dst : Workload}
    (h : (m.proceed client limit src dst s).1 = .succeeded) :
    m.goal.replicas ≤ m.counters.src ∧ m.goal.replicas ≤ m.counters.dst := by
  rw [proceed_eq] at h
  cases hintent : m.intent src dst with
  | settle v =>
    rw [hintent] at h
    obtain rfl : v = .succeeded := h
    unfold intent at hintent
    split at hintent
    · split at hintent
      · next hplan => exact of_plan_eq_complete hplan
      · cases hintent
      · split at hintent <;> cases hintent
      · split at hintent <;> cases hintent
    · cases hintent
  | write side n =>
    -- a write lands or fails
    rw [hintent] at h
    rcases move_cases client limit m side n (side.pick src dst) s with
      ⟨written, s', -, hmove⟩ | ⟨e, s', -, hmove⟩
    · simp [hmove] at h
    · rcases m.onWriteError_cases limit (side.pick src dst).ref e with ⟨w, hw⟩ | ⟨c, hc⟩
      · simp [hmove, hw] at h
      · simp [hmove, hc] at h

/-- A pass ends a migration with success only when both counters have come to the target. -/
theorem of_pass_succeeded (h : (m.pass client limit now s).1 = .succeeded) :
    m.goal.replicas ≤ m.counters.src ∧ m.goal.replicas ≤ m.counters.dst := by
  unfold pass at h
  split at h
  · cases h
  split at h
  · next hcomplete =>
    have hcounters : m.counters = ⟨m.goal.replicas, m.goal.replicas⟩ := by
      simpa [isComplete] using hcomplete
    rw [hcounters]
    exact ⟨le_refl _, le_refl _⟩
  split at h
  · cases h
  split at h
  · cases h
  · exact of_proceed_succeeded h

/-- Counters that have not passed the target. -/
def WithinTarget (m : Migration) : Prop :=
  m.counters.src ≤ m.goal.replicas ∧ m.counters.dst ≤ m.goal.replicas

/-- Counting is cut off at the target, whatever the verdict. -/
theorem WithinTarget.conclude (h : m.WithinTarget) (now : Nat) (v : Verdict) :
    (m.conclude now v).WithinTarget := by
  unfold WithinTarget
  rw [goal_conclude, counters_conclude]
  cases v with
  | landed side n generation =>
    cases side with
    | src => exact ⟨min_le_right _ _, min_le_right _ _⟩
    | dst => exact ⟨min_le_right _ _, min_le_right _ _⟩
  | unchanged => exact h
  | succeeded => exact h
  | failed cause => exact h
  | refused e => exact h

/-- A pass that ends a migration leaves a coherent result: after success both counters are at the
target and there is nothing to say, after failure there is. -/
theorem coherent_of_ending (hwithin : m.WithinTarget) (hexecuting : m.isTerminal = false)
    {ending : Ending} (h : (m.pass client limit now s).1.ending? now = some ending) :
    (m.conclude now (m.pass client limit now s).1).ending = some ending ∧ ending.time = now ∧
      (ending.succeeded = true → ending.message = "" ∧
        (m.conclude now (m.pass client limit now s).1).counters =
          ⟨m.goal.replicas, m.goal.replicas⟩) ∧
      (ending.succeeded = false → ending.message ≠ "") := by
  have hnone : m.ending = none := isTerminal_eq_false_iff.1 hexecuting
  cases hv : (m.pass client limit now s).1 with
  | succeeded =>
    obtain ⟨hsrc, hdst⟩ := of_pass_succeeded hv
    rw [hv] at h
    cases h
    refine ⟨?_, rfl, fun _ => ⟨rfl, ?_⟩, fun hfailed => nomatch hfailed⟩
    · rw [conclude_of_ending hnone rfl]
    · obtain ⟨hsrc', hdst'⟩ := hwithin
      rw [counters_conclude]
      calc m.counters = ⟨m.counters.src, m.counters.dst⟩ := rfl
        _ = ⟨m.goal.replicas, m.goal.replicas⟩ := by
          rw [le_antisymm hsrc' hsrc, le_antisymm hdst' hdst]
  | failed cause =>
    rw [hv] at h
    cases h
    refine ⟨?_, rfl, fun hsucceeded => (nomatch hsucceeded), fun _ => cause.message_ne⟩
    rw [conclude_of_ending hnone rfl]
  | unchanged => simp [hv, Verdict.ending?] at h
  | landed side n generation => simp [hv, Verdict.ending?] at h
  | refused e => simp [hv, Verdict.ending?] at h

end Migration

/-! ## Events -/

namespace Registry

/-- What can happen to known migrations: a pass over one, which finds the client in some state; an
attempt to end one; eviction. -/
inductive Event (σ : Type) where
  | pass (now : Nat) (id : MigrationId) (s : σ)
  | finish (id : MigrationId) (ending : Ending)
  | prune (policy : Retention) (now : Nat)

/-- The registry after an event. -/
def next (client : Client σ) (limit : Nat) (g : Registry) : Event σ → Registry
  | .pass now id s => (g.reconcile client limit now id s).2.1
  | .finish id ending => (g.finish id ending).2
  | .prune policy now => (g.prune policy now).2

/-- The registry after some events. -/
def afterEvents (client : Client σ) (limit : Nat) (g : Registry) (events : List (Event σ)) :
    Registry :=
  events.foldl (next client limit) g

/-- What an event's attempt to end a migration answers, if the event attempts it. A pass does if its
verdict says so. -/
def attempt? (client : Client σ) (limit : Nat) (id : MigrationId) (g : Registry) :
    Event σ → Option Bool
  | .pass now other s =>
    if other = id then
      match g.get? id with
      | none => none
      | some m =>
        let v := (m.pass client limit now s).1
        (v.ending? now).map fun ending => ((g.modify id v.applyTo).finish id ending).1
    else none
  | .finish other ending => if other = id then some (g.finish id ending).1 else none
  | .prune _ _ => none

/-- The answers of all attempts to end a migration, in order. -/
def attempts (client : Client σ) (limit : Nat) (id : MigrationId) (g : Registry) :
    List (Event σ) → List Bool
  | [] => []
  | e :: events =>
    (g.attempt? client limit id e).toList ++ (g.next client limit e).attempts client limit id events

/-- A migration is known and executing. -/
def Executing (g : Registry) (id : MigrationId) : Prop :=
  ∃ m, g.get? id = some m ∧ m.isTerminal = false

variable {g : Registry} {id : MigrationId} {m t : Migration} {client : Client σ} {limit : Nat}
  {e : Event σ} {events : List (Event σ)}

/-- An attempt to end a migration succeeds just when the migration is known and executing. -/
theorem finish_fst_eq_true_iff (ending : Ending) :
    (g.finish id ending).1 = true ↔ g.Executing id := by
  unfold finish Executing
  cases g.get? id with
  | none => simp
  | some m =>
    cases hterminal : m.isTerminal with
    | true => simp [hterminal]
    | false => simp [hterminal]

/-! ### Events after the end -/

/-- A pass over a migration that has ended calls nobody and changes nothing. -/
theorem reconcile_of_isTerminal (hm : g.get? id = some m) (hterminal : m.isTerminal = true)
    (client : Client σ) (limit now : Nat) (s : σ) :
    g.reconcile client limit now id s = (.ok (), g, s) :=
  reconcile_of_pass_unchanged hm (m.pass_of_isTerminal hterminal client limit now s)

/-- What is known of a migration that has ended stays, until it is evicted. -/
theorem get?_next_of_isTerminal (client : Client σ) (limit : Nat) (hm : g.get? id = some m)
    (hterminal : m.isTerminal = true) (e : Event σ) :
    (g.next client limit e).get? id = some m ∨ (g.next client limit e).get? id = none := by
  cases e with
  | pass now other s =>
    refine .inl ?_
    by_cases h : other = id
    · subst h
      show (g.reconcile client limit now other s).2.1.get? other = some m
      rw [reconcile_of_isTerminal hm hterminal]
      exact hm
    · show (g.reconcile client limit now other s).2.1.get? id = some m
      rw [get?_reconcile, if_neg (Ne.symm h), hm]
  | finish other ending =>
    refine .inl ?_
    show (g.finish other ending).2.get? id = some m
    rw [get?_finish, hm]
    split
    · rw [Option.map_some, m.finish_of_isTerminal hterminal]
    · rfl
  | prune policy now =>
    show (g.prune policy now).2.get? id = some m ∨ (g.prune policy now).2.get? id = none
    rw [get?_prune, hm]
    split
    · exact .inr rfl
    · exact .inl rfl

/-- A migration that is not known does not come to be known. -/
theorem get?_next_of_get?_eq_none (hm : g.get? id = none) (e : Event σ) :
    (g.next client limit e).get? id = none := by
  cases e with
  | pass now other s =>
    show (g.reconcile client limit now other s).2.1.get? id = none
    rw [get?_reconcile, hm]
    split <;> rfl
  | finish other ending =>
    show (g.finish other ending).2.get? id = none
    rw [get?_finish, hm]
    split <;> rfl
  | prune policy now =>
    show (g.prune policy now).2.get? id = none
    rw [get?_prune, hm]
    split <;> rfl

/-- After its end a migration is as it was then, or evicted. -/
theorem get?_afterEvents_of_isTerminal (hm : g.get? id = some m ∨ g.get? id = none)
    (hterminal : m.isTerminal = true) (events : List (Event σ)) :
    (g.afterEvents client limit events).get? id = some m ∨
      (g.afterEvents client limit events).get? id = none := by
  induction events generalizing g with
  | nil => exact hm
  | cons e events ih =>
    refine ih ?_
    rcases hm with hm | hm
    · exact get?_next_of_isTerminal client limit hm hterminal e
    · exact .inr (get?_next_of_get?_eq_none hm e)

/-- A migration that is not executing, because it has ended or is not known, does not come to be
executing. -/
theorem not_executing_next (h : ¬ g.Executing id) (e : Event σ) :
    ¬ (g.next client limit e).Executing id := by
  rintro ⟨t, ht, hexecuting⟩
  cases hm : g.get? id with
  | none =>
    rw [get?_next_of_get?_eq_none hm] at ht
    cases ht
  | some m =>
    have hterminal : m.isTerminal = true := by
      by_contra hne
      exact h ⟨m, hm, Bool.eq_false_iff.2 hne⟩
    rcases get?_next_of_isTerminal client limit hm hterminal e with hsame | hnone
    · obtain rfl : m = t := Option.some.inj (hsame.symm.trans ht)
      rw [hterminal] at hexecuting
      cases hexecuting
    · rw [hnone] at ht
      cases ht

theorem attempt?_pass (hm : g.get? id = some m) (now : Nat) (s : σ) :
    g.attempt? client limit id (.pass now id s) =
      ((m.pass client limit now s).1.ending? now).map fun ending =>
        ((g.modify id (m.pass client limit now s).1.applyTo).finish id ending).1 := by
  simp only [attempt?, if_pos, hm]

theorem attempt?_finish (g : Registry) (id : MigrationId) (ending : Ending) :
    g.attempt? client limit id (.finish id ending) = some (g.finish id ending).1 :=
  if_pos rfl

/-- A pass over an executing migration ends it just if its verdict says so. -/
theorem attempt?_pass_eq_true_iff (hm : g.get? id = some m) (hexecuting : m.isTerminal = false)
    (now : Nat) (s : σ) :
    g.attempt? client limit id (.pass now id s) = some true ↔
      (m.pass client limit now s).1.ending? now ≠ none := by
  rw [attempt?_pass hm]
  cases (m.pass client limit now s).1.ending? now with
  | none => simp
  | some ending =>
    -- what the verdict notes down first does not end the migration
    have hnoted : (g.modify id (m.pass client limit now s).1.applyTo).Executing id := by
      refine ⟨(m.pass client limit now s).1.applyTo m, ?_, ?_⟩
      · rw [get?_modify, if_pos rfl, hm, Option.map_some]
      · have happly := (m.pass client limit now s).1.applyTo_eq m
        simp only [Prod.mk.injEq] at happly
        rw [Migration.isTerminal_eq_false_iff] at hexecuting ⊢
        rw [happly.2.2.2, hexecuting]
    simp [(finish_fst_eq_true_iff ending).2 hnoted]

/-- An attempt to end a migration succeeds only if that is known and executing. -/
theorem executing_of_attempt? (h : g.attempt? client limit id e = some true) : g.Executing id := by
  cases e with
  | pass now other s =>
    by_cases hid : other = id
    · subst hid
      cases hm : g.get? other with
      | none => simp [attempt?, hm] at h
      | some m =>
        refine ⟨m, hm, Bool.eq_false_iff.2 fun hterminal => ?_⟩
        -- a pass over a migration that has ended does not attempt to end it
        rw [attempt?_pass hm, m.pass_of_isTerminal hterminal] at h
        cases h
    · simp [attempt?, hid] at h
  | finish other ending =>
    by_cases hid : other = id
    · subst hid
      rw [attempt?_finish] at h
      exact (finish_fst_eq_true_iff ending).1 (Option.some.inj h)
    · simp [attempt?, hid] at h
  | prune policy now => cases h

/-! ### Events before the end -/

theorem Identified.next (h : g.Identified) (e : Event σ) :
    (g.next client limit e).Identified := by
  cases e with
  | pass now other s =>
    show (g.reconcile client limit now other s).2.1.Identified
    unfold reconcile
    cases g.get? other with
    | none => exact h
    | some m => exact h.record other now _
  | finish other ending => exact h.finish other ending
  | prune policy now => exact h.prune policy now

/-- An executing migration is known after any event, and it has ended just if the event's attempt to
end it succeeded. It pursues the same goal, and its counters are within the target if they were. -/
theorem get?_next_of_executing (client : Client σ) (limit : Nat) (h : g.Identified)
    (hm : g.get? id = some m) (hexecuting : m.isTerminal = false) (e : Event σ) :
    ∃ t, (g.next client limit e).get? id = some t ∧
      (t.isTerminal = true ↔ g.attempt? client limit id e = some true) ∧ t.goal = m.goal ∧
      (m.WithinTarget → t.WithinTarget) := by
  have hother : ∀ {a : Option Bool}, a = none → (m.isTerminal = true ↔ a = some true) := by
    rintro a rfl
    simp [hexecuting]
  cases e with
  | pass now other s =>
    by_cases hid : other = id
    · subst hid
      have hget := (reconcile_of_get? hm client limit now s).1
      refine ⟨_, hget, ?_, m.goal_conclude now _, fun hwithin => hwithin.conclude now _⟩
      rw [Migration.isTerminal_conclude_iff hexecuting, attempt?_pass_eq_true_iff hm hexecuting]
    · refine ⟨m, ?_, hother (if_neg hid), rfl, fun hwithin => hwithin⟩
      show (g.reconcile client limit now other s).2.1.get? id = some m
      rw [get?_reconcile, if_neg (Ne.symm hid), hm]
  | finish other ending =>
    by_cases hid : other = id
    · subst hid
      refine ⟨m.finish ending, ?_, ?_, rfl, fun hwithin => hwithin⟩
      · show (g.finish other ending).2.get? other = some (m.finish ending)
        rw [get?_finish, if_pos rfl, hm, Option.map_some]
      · rw [attempt?_finish, (finish_fst_eq_true_iff ending).2 ⟨m, hm, hexecuting⟩]
        exact ⟨fun _ => rfl, fun _ => rfl⟩
    · refine ⟨m, ?_, hother (if_neg hid), rfl, fun hwithin => hwithin⟩
      show (g.finish other ending).2.get? id = some m
      rw [get?_finish, if_neg (Ne.symm hid), hm]
  | prune policy now =>
    exact ⟨m, h.get?_prune hm hexecuting policy now, hother rfl, rfl, fun hwithin => hwithin⟩

/-! ### Runs -/

theorem Identified.afterEvents (h : g.Identified) (events : List (Event σ)) :
    (g.afterEvents client limit events).Identified := by
  induction events generalizing g with
  | nil => exact h
  | cons e events ih => exact ih (h.next e)

/-- Once a migration is not executing, no attempt to end it succeeds any more. -/
theorem attempts_of_not_executing (client : Client σ) (limit : Nat) (h : ¬ g.Executing id)
    (events : List (Event σ)) :
    true ∉ g.attempts client limit id events ∧
      ¬ (g.afterEvents client limit events).Executing id := by
  induction events generalizing g with
  | nil => exact ⟨List.not_mem_nil, h⟩
  | cons e events ih =>
    obtain ⟨hrest, hafter⟩ := ih (not_executing_next h e)
    refine ⟨fun hmem => ?_, hafter⟩
    rcases List.mem_append.1 hmem with hmem | hmem
    · exact h (executing_of_attempt? (Option.mem_toList.1 hmem))
    · exact hrest hmem

/-- Over any events an executing migration either goes on, and no attempt to end it has succeeded,
or it does not, and one attempt has. -/
theorem attempts_of_executing (client : Client σ) (limit : Nat) (h : g.Identified)
    (hexecuting : g.Executing id) (events : List (Event σ)) :
    (g.afterEvents client limit events).Executing id ∧
        (g.attempts client limit id events).count true = 0 ∨
      ¬ (g.afterEvents client limit events).Executing id ∧
        (g.attempts client limit id events).count true = 1 := by
  induction events generalizing g with
  | nil => exact .inl ⟨hexecuting, rfl⟩
  | cons e events ih =>
    obtain ⟨m, hm, hm_executing⟩ := hexecuting
    obtain ⟨t, ht, hterminal, -, -⟩ :=
      get?_next_of_executing client limit h hm hm_executing e
    by_cases hattempt : g.attempt? client limit id e = some true
    · -- this attempt is the one, and those after it fail
      have hended : ¬ (g.next client limit e).Executing id := by
        rintro ⟨t', ht', hexecuting'⟩
        obtain rfl : t = t' := Option.some.inj (ht.symm.trans ht')
        rw [hterminal.2 hattempt] at hexecuting'
        cases hexecuting'
      obtain ⟨hrest, hafter⟩ := attempts_of_not_executing client limit hended events
      refine .inr ⟨hafter, ?_⟩
      rw [attempts, hattempt, Option.toList_some, List.singleton_append, List.count_cons_self,
        List.count_eq_zero_of_not_mem hrest]
    · have hgoes : (g.next client limit e).Executing id :=
        ⟨t, ht, Bool.eq_false_iff.2 fun hended => hattempt (hterminal.1 hended)⟩
      have hnone : (g.attempt? client limit id e).toList.count true = 0 :=
        List.count_eq_zero_of_not_mem fun hmem => hattempt (Option.mem_toList.1 hmem)
      rw [attempts, List.count_append, hnone, Nat.zero_add]
      exact ih (h.next e) hgoes

/-- While a migration is executing it pursues its goal, and its counters are within the target if
they were at first. -/
theorem get?_afterEvents_of_executing (h : g.Identified) (hm : g.get? id = some m)
    (hexecuting : m.isTerminal = false)
    (hafter : (g.afterEvents client limit events).Executing id) :
    ∃ t, (g.afterEvents client limit events).get? id = some t ∧ t.isTerminal = false ∧
      t.goal = m.goal ∧ (m.WithinTarget → t.WithinTarget) := by
  induction events generalizing g m with
  | nil => exact ⟨m, hm, hexecuting, rfl, fun hwithin => hwithin⟩
  | cons e events ih =>
    obtain ⟨t, ht, -, hgoal, hwithin⟩ :=
      get?_next_of_executing client limit h hm hexecuting e
    have hgoes : t.isTerminal = false := by
      by_contra hended
      have hnot : ¬ (g.next client limit e).Executing id := by
        rintro ⟨t', ht', hexecuting'⟩
        obtain rfl : t = t' := Option.some.inj (ht.symm.trans ht')
        exact hended hexecuting'
      exact (attempts_of_not_executing client limit hnot events).2 hafter
    obtain ⟨t', ht', hexecuting', hgoal', hwithin'⟩ := ih (h.next e) ht hgoes hafter
    exact ⟨t', ht', hexecuting', hgoal'.trans hgoal, fun hw => hwithin' (hwithin hw)⟩

theorem afterEvents_append (g : Registry) (before rest : List (Event σ)) :
    g.afterEvents client limit (before ++ rest) =
      (g.afterEvents client limit before).afterEvents client limit rest :=
  List.foldl_append

/-- Over any events after a migration was executing: at most one attempt to end it succeeds, and
none has just if it is still executing. If the attempt of an event succeeds, the migration was
executing until then, and has ended as it stays: it is known word for word as it was after that
event until it is evicted, and a pass over it, against any client, calls nobody. If the event was a
pass, the result is coherent: after success both counters are at the target and there is no message,
after failure there is one. -/
theorem ending_is_final (client : Client σ) (limit : Nat) (hg : g.Identified)
    (hm : g.get? id = some m) (hexecuting : m.isTerminal = false) (events : List (Event σ)) :
    (g.attempts client limit id events).count true ≤ 1 ∧
      (true ∉ g.attempts client limit id events ↔
        (g.afterEvents client limit events).Executing id) ∧
      ∀ before e rest, events = before ++ e :: rest →
        (g.afterEvents client limit before).attempt? client limit id e = some true →
        (g.afterEvents client limit before).Executing id ∧
        ∃ t, (g.afterEvents client limit (before ++ [e])).get? id = some t ∧ t.isTerminal = true ∧
          (∀ after later, rest = after ++ later →
            let f := g.afterEvents client limit (before ++ e :: after)
            (f.get? id = some t ∨ f.get? id = none) ∧
              ∀ {τ : Type} (other : Client τ) (limit now : Nat) (s : τ),
                f.reconcile other limit now id s = (.ok (), f, s)) ∧
          (m.counters = .zero → 0 ≤ m.goal.replicas → ∀ now s, e = .pass now id s →
            ∃ ending, t.ending = some ending ∧ ending.time = now ∧
              (ending.succeeded = true → ending.message = "" ∧
                t.counters = ⟨m.goal.replicas, m.goal.replicas⟩) ∧
              (ending.succeeded = false → ending.message ≠ "")) := by
  have hruns := attempts_of_executing client limit hg ⟨m, hm, hexecuting⟩ events
  refine ⟨?_, ?_, ?_⟩
  · rcases hruns with ⟨-, hcount⟩ | ⟨-, hcount⟩ <;> omega
  · rw [← List.count_eq_zero]
    rcases hruns with ⟨hafter, hcount⟩ | ⟨hafter, hcount⟩
    · exact ⟨fun _ => hafter, fun _ => hcount⟩
    · exact ⟨fun hzero => by omega, fun hexecuting => absurd hexecuting hafter⟩
  · intro before e rest _ hattempt
    have hbefore := executing_of_attempt? hattempt
    obtain ⟨u, hu, hu_executing, hgoal, hwithin⟩ :=
      get?_afterEvents_of_executing hg hm hexecuting hbefore
    obtain ⟨t, ht, hterminal, -, -⟩ :=
      get?_next_of_executing client limit (hg.afterEvents before) hu hu_executing e
    have ht_terminal := hterminal.2 hattempt
    refine ⟨hbefore, t, ?_, ht_terminal, fun after later _ => ?_, ?_⟩
    · rw [afterEvents_append]
      exact ht
    · intro f
      have hf : f = ((g.afterEvents client limit before).next client limit e).afterEvents client
          limit after := afterEvents_append g before (e :: after)
      have hget : f.get? id = some t ∨ f.get? id = none := by
        rw [hf]
        exact get?_afterEvents_of_isTerminal (.inl ht) ht_terminal after
      refine ⟨hget, fun other limit now s => ?_⟩
      rcases hget with hget | hget
      · exact reconcile_of_isTerminal hget ht_terminal other limit now s
      · exact reconcile_of_get?_eq_none hget other limit now s
    · rintro hzero hnonneg now s rfl
      have hm_within : m.WithinTarget := by
        unfold Migration.WithinTarget
        rw [hzero]
        exact ⟨hnonneg, hnonneg⟩
      have hget := (reconcile_of_get? hu client limit now s).1
      obtain rfl := Option.some.inj (ht.symm.trans hget)
      rw [attempt?_pass hu] at hattempt
      obtain ⟨ending, hending, -⟩ := Option.map_eq_some_iff.1 hattempt
      obtain ⟨hresult, htime, hsucceeded, hfailed⟩ :=
        Migration.coherent_of_ending (hwithin hm_within) hu_executing hending
      rw [hgoal] at hsucceeded
      exact ⟨ending, hresult, htime, hsucceeded, hfailed⟩

/-- Three passes move one replica and end the migration. Another attempt to end it comes too late, a
pass that is asked for once more does nothing, and then the migration is evicted. -/
theorem ending_is_final_of_one_replica :
    let web : ResourceRef := .of .deployment "default" "web"
    let webCs : ResourceRef := .of .cloneSet "default" "web-cs"
    let m : Migration := .start ⟨7⟩ web webCs .deploymentToCloneSet ⟨1, 1, none⟩ ⟨1, 1⟩ 0
    let g := Registry.empty.register m
    let filled := ((Platform.empty 4).put
      ((Workload.named .deployment "default" "web").withReplicas (some 3))).2.put
      (Workload.named .cloneSet "default" "web-cs")
    let p := filled.2.settleAll.2
    let out := g.reconcile Platform.client 5 10 ⟨7⟩ p
    let q := out.2.2.settleAll.2
    let r := (out.2.1.reconcile Platform.client 5 20 ⟨7⟩ q).2.2.settleAll.2
    let before : List (Event Platform) := [.pass 10 ⟨7⟩ p, .pass 20 ⟨7⟩ q]
    let last : Event Platform := .pass 30 ⟨7⟩ r
    let rest : List (Event Platform) :=
      [.finish ⟨7⟩ ⟨false, "too late", 40⟩, .pass 50 ⟨7⟩ p, .prune ⟨0, 0⟩ 60]
    g.attempts Platform.client 5 ⟨7⟩ (before ++ last :: rest) = [true, false] ∧
      ∃ t, (g.afterEvents Platform.client 5 (before ++ [last])).get? ⟨7⟩ = some t ∧
        t.counters = ⟨1, 1⟩ ∧
        ∀ after later, rest = after ++ later →
          (g.afterEvents Platform.client 5 (before ++ last :: after)).get? ⟨7⟩ = some t ∨
            (g.afterEvents Platform.client 5 (before ++ last :: after)).get? ⟨7⟩ = none := by
  intro web webCs m g filled p out q r before last rest
  have hg : g.Identified := identified_empty.register m
  have hm : g.get? ⟨7⟩ = some m := rfl
  have hattempt : (g.afterEvents Platform.client 5 before).attempt? Platform.client 5 ⟨7⟩ last =
      some true := by decide +kernel
  obtain ⟨-, -, hfinal⟩ :=
    ending_is_final Platform.client 5 hg hm rfl (before ++ last :: rest)
  obtain ⟨-, t, ht, -, hstays, hcoherent⟩ := hfinal before last rest rfl hattempt
  obtain ⟨ending, hending, -, hsucceeded, -⟩ := hcoherent rfl (by decide) 30 r rfl
  have hresult : ((g.afterEvents Platform.client 5 (before ++ [last])).get? ⟨7⟩).bind (·.ending) =
      some ⟨true, "", 30⟩ := by decide +kernel
  rw [ht, Option.bind_some, hending] at hresult
  obtain rfl := Option.some.inj hresult
  exact ⟨by decide +kernel, t, ht, (hsucceeded rfl).2,
    fun after later hsplit => (hstays after later hsplit).1⟩

end Registry

end Handover
