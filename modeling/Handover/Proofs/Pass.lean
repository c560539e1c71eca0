import Handover.Pass
import Handover.Proofs.Plan

/-!
# What a pass can do

A pass over a migration that is open (executing, with work left and time left) reads two objects and
has an `Intent`: it settles at once, or it writes one side. `Migration.pass_cases` says all that a
pass can do against any client, `Migration.move_cases` all that can come of the write, and
`Registry.get?_reconcile` what is recorded: the migration as its verdict leaves it
(`Migration.conclude`), and nothing about any other.
-/

namespace Handover

/-! ## The two sides -/

namespace Side

/-- The one of two things that belongs to a side. -/
def pick {α : Type} : Side → α → α → α
  | .src, a, _ => a
  | .dst, _, b => b

/-- By how much a side's replica count changes when an amount is moved. -/
def change : Side → Int → Int
  | .src, n => -n
  | .dst, n => n

/-- The step that moves an amount on a side. -/
def step : Side → Int → Step
  | .src, n => .scaleIn n
  | .dst, n => .scaleOut n

theorem change_add (side : Side) (n k : Int) :
    side.change (n + k) = side.change n + side.change k := by
  cases side
  · exact Int.neg_add
  · rfl

end Side

/-- A planned move is of a positive amount. -/
theorem Side.pos_of_plan_eq {target maxSurge n : Int} {c : Counters} {o : Observation} {side : Side}
    (h : plan target maxSurge c o = side.step n) : 0 < n := by
  cases side with
  | src => exact (of_plan_eq_scaleIn h).1
  | dst => exact (of_plan_eq_scaleOut h).1

/-- The counter of a side. -/
def Counters.count (c : Counters) (side : Side) : Int :=
  side.pick c.src c.dst

/-- A step on a side moves the counter of that side alone. -/
theorem Counters.count_after_step (c : Counters) (side other : Side) (n : Int) :
    (c.after (side.step n)).count other =
      if other = side then c.count other + n else c.count other := by
  cases side <;> cases other <;> rfl

namespace Workload

/-- The object with its replica count moved by an amount on a side. -/
def moved (w : Workload) (side : Side) (n : Int) : Workload :=
  w.withReplicas (some (w.declared + side.change n))

@[simp]
theorem ref_moved (w : Workload) (side : Side) (n : Int) : (w.moved side n).ref = w.ref :=
  rfl

end Workload

/-! ## The intent of a pass -/

/-- What a pass makes of the two objects it has read: a verdict at once, or a write of one side. -/
inductive Intent where
  | settle (v : Verdict)
  | write (side : Side) (amount : Int)

/-- Whether a verdict can be reached without a write. -/
def Verdict.isWriteless : Verdict → Bool
  | unchanged | succeeded | failed (.timedOut _) | failed (.platform _) => true
  | failed (.scaleOutOfRange ..) | failed (.scaleInOfRange ..) => true
  | failed (.exhausted ..) | landed .. | refused _ => false

/-- Whether a verdict is that a write landed. -/
def Verdict.isLanded : Verdict → Bool
  | landed .. => true
  | unchanged | succeeded | failed _ | refused _ => false

theorem Verdict.isLanded_of_isWriteless {v : Verdict} (h : v.isWriteless = true) :
    v.isLanded = false := by
  cases v with
  | landed side n generation => cases h
  | failed cause => rfl
  | unchanged => rfl
  | succeeded => rfl
  | refused e => rfl

namespace Migration

variable {σ : Type}

theorem isTerminal_eq_false_iff {m : Migration} : m.isTerminal = false ↔ m.ending = none := by
  unfold isTerminal
  rw [Option.isSome_eq_false_iff, Option.isNone_iff_eq_none]

theorem phase_eq_executing_iff {m : Migration} :
    m.phase = .executing ↔ m.isTerminal = false := by
  unfold phase isTerminal
  cases m.ending with
  | none => simp
  | some e => cases hsucceeded : e.succeeded <;> simp [hsucceeded]

/-- Whether a pass has to look at the objects: the migration is executing, with work and time
left. -/
def isOpen (m : Migration) (now : Nat) : Bool :=
  !m.isTerminal && !m.isComplete && !m.timedOut now

/-- The reference to the object of a side. -/
def refOf (m : Migration) (side : Side) : ResourceRef :=
  side.pick m.src m.dst

/-- Where the two objects differ, each side has its own. -/
theorem refOf_inj {m : Migration} (hne : m.src ≠ m.dst) {side other : Side} :
    m.refOf other = m.refOf side ↔ other = side := by
  cases side <;> cases other <;> simp [refOf, Side.pick, hne, hne.symm]

/-- The intent of a pass that has read these two objects. -/
def intent (m : Migration) (src dst : Workload) : Intent :=
  if m.isCurrent src dst then
    match plan m.goal.replicas m.goal.maxSurge m.counters (observe src dst) with
    | .complete => .settle .succeeded
    | .wait _ => .settle .unchanged
    | .scaleOut n =>
      if inReplicaRange (dst.declared + n) then .write .dst n
      else .settle (.failed (.scaleOutOfRange m.dst n))
    | .scaleIn n =>
      if inReplicaRange (src.declared - n) then .write .src n
      else .settle (.failed (.scaleInOfRange m.src n))
  else .settle .unchanged

/-- A write is intended just if the objects are current, the plan moves replicas on that side and
the new count is in range. -/
theorem intent_eq_write_iff {m : Migration} {src dst : Workload} {side : Side} {n : Int} :
    m.intent src dst = .write side n ↔
      m.isCurrent src dst = true ∧
      plan m.goal.replicas m.goal.maxSurge m.counters (observe src dst) = side.step n ∧
      inReplicaRange ((side.pick src dst).declared + side.change n) = true := by
  unfold intent
  split
  · next hcurrent =>
    cases hplan : plan m.goal.replicas m.goal.maxSurge m.counters (observe src dst) with
    | complete => cases side <;> simp [Side.step]
    | wait => cases side <;> simp [Side.step]
    | scaleOut k =>
      cases side with
      | src => simp only [Side.step]; split <;> simp
      | dst =>
        simp only [Side.step, Side.pick, Side.change, Step.scaleOut.injEq, hcurrent, true_and]
        constructor
        · intro h
          split at h
          · next hrange =>
            obtain ⟨-, rfl⟩ : Side.dst = .dst ∧ k = n := by simpa using h
            exact ⟨rfl, hrange⟩
          · cases h
        · rintro ⟨rfl, hrange⟩
          rw [if_pos hrange]
    | scaleIn k =>
      cases side with
      | dst => simp only [Side.step]; split <;> simp
      | src =>
        simp only [Side.step, Side.pick, Side.change, Step.scaleIn.injEq, hcurrent, true_and,
          ← Int.sub_eq_add_neg]
        constructor
        · intro h
          split at h
          · next hrange =>
            obtain ⟨-, rfl⟩ : Side.src = .src ∧ k = n := by simpa using h
            exact ⟨rfl, hrange⟩
          · cases h
        · rintro ⟨rfl, hrange⟩
          rw [if_pos hrange]
  · next hcurrent => simp [hcurrent]

/-- An intent that settles does so without a write. -/
theorem isWriteless_of_intent {m : Migration} {src dst : Workload} {v : Verdict}
    (h : m.intent src dst = .settle v) : v.isWriteless = true := by
  unfold intent at h
  repeat' split at h
  all_goals first | cases h; rfl | cases h

/-! ## Passes against any client -/

/-- Write one side as intended. -/
def move (client : Client σ) (limit : Nat) (m : Migration) (side : Side) (n : Int)
    (object : Workload) (s : σ) : Verdict × σ :=
  m.write client limit side n object (object.declared + side.change n) s

/-- To proceed from two objects is to carry out the intent. -/
theorem proceed_eq (client : Client σ) (limit : Nat) (m : Migration) (src dst : Workload) (s : σ) :
    m.proceed client limit src dst s =
      match m.intent src dst with
      | .settle v => (v, s)
      | .write side n => m.move client limit side n (side.pick src dst) s := by
  unfold proceed intent
  split
  · unfold act
    cases plan m.goal.replicas m.goal.maxSurge m.counters (observe src dst) with
    | complete => rfl
    | wait => rfl
    | scaleOut n => dsimp only; split <;> rfl
    | scaleIn n => dsimp only; split <;> rfl
  · rfl

/-- A pass over a migration that has ended looks at nothing and changes nothing. -/
theorem pass_of_isTerminal {m : Migration} (h : m.isTerminal = true) (client : Client σ)
    (limit now : Nat) (s : σ) : m.pass client limit now s = (.unchanged, s) :=
  if_pos h

/-- A pass over an open migration reads both objects and proceeds from them. -/
theorem pass_of_isOpen {m : Migration} {now : Nat} (h : m.isOpen now = true) (client : Client σ)
    (limit : Nat) (s : σ) :
    m.pass client limit now s =
      match m.readBoth client s with
      | (.error e, s) => (.failed (.platform e), s)
      | (.ok (src, dst), s) => m.proceed client limit src dst s := by
  simp only [isOpen, Bool.and_eq_true, Bool.not_eq_true'] at h
  simp only [pass, h]
  rfl

/-- A pass over a migration that is not open settles without looking at the objects, in the same way
whoever the client is; if the migration is executing, that ends it. -/
theorem pass_of_not_isOpen {m : Migration} {now : Nat} (h : m.isOpen now = false) :
    ∃ v : Verdict, v.isWriteless = true ∧ (m.ending = none → v.ending? now ≠ none) ∧
      ∀ {τ : Type} (client : Client τ) (limit : Nat) (s : τ),
        m.pass client limit now s = (v, s) := by
  unfold pass
  split
  · next hterminal =>
    refine ⟨_, rfl, fun hending => ?_, fun _ _ _ => rfl⟩
    unfold isTerminal at hterminal
    rw [hending] at hterminal
    cases hterminal
  split
  · exact ⟨.succeeded, rfl, fun _ => Option.some_ne_none _, fun _ _ _ => rfl⟩
  split
  · exact ⟨.failed (.timedOut _), rfl, fun _ => Option.some_ne_none _, fun _ _ _ => rfl⟩
  -- with none of the three reasons the migration would be open
  simp_all [isOpen]

/-- All that a pass can do: settle without a write, or read two objects of an open migration and
carry out the write that it intends. -/
theorem pass_cases (client : Client σ) (limit now : Nat) (m : Migration) (s : σ) :
    (∃ v s', v.isWriteless = true ∧ (s' = s ∨ s' = (m.readBoth client s).2) ∧
      m.pass client limit now s = (v, s')) ∨
    ∃ src dst s' side n, m.isOpen now = true ∧ m.readBoth client s = (.ok (src, dst), s') ∧
      m.intent src dst = .write side n ∧
      m.pass client limit now s = m.move client limit side n (side.pick src dst) s' := by
  cases hopen : m.isOpen now with
  | false =>
    obtain ⟨v, hv, -, hpass⟩ := pass_of_not_isOpen hopen
    exact .inl ⟨v, s, hv, .inl rfl, hpass client limit s⟩
  | true =>
    rw [pass_of_isOpen hopen]
    rcases hread : m.readBoth client s with ⟨e | ⟨src, dst⟩, s'⟩
    · exact .inl ⟨_, s', rfl, .inr rfl, rfl⟩
    · dsimp only
      rw [proceed_eq]
      cases hintent : m.intent src dst with
      | settle v => exact .inl ⟨v, s', isWriteless_of_intent hintent, .inr rfl, rfl⟩
      | write side n => exact .inr ⟨src, dst, s', side, n, rfl, rfl, hintent, rfl⟩

/-- The verdict on a write follows the client's answer. -/
theorem move_eq (client : Client σ) (limit : Nat) (m : Migration) (side : Side) (n : Int)
    (object : Workload) (s : σ) :
    m.move client limit side n object s =
      match client.update (object.moved side n) s with
      | (.ok written, s) => (.landed side n written.metadata.generation, s)
      | (.error e, s) => (m.onWriteError limit object.ref e, s) :=
  rfl

/-- All that can come of a write: it lands, or the client's error is judged. -/
theorem move_cases (client : Client σ) (limit : Nat) (m : Migration) (side : Side) (n : Int)
    (object : Workload) (s : σ) :
    (∃ written s', client.update (object.moved side n) s = (.ok written, s') ∧
      m.move client limit side n object s = (.landed side n written.metadata.generation, s')) ∨
    ∃ e s', client.update (object.moved side n) s = (.error e, s') ∧
      m.move client limit side n object s = (m.onWriteError limit object.ref e, s') := by
  rcases hupdate : client.update (object.moved side n) s with ⟨e | written, s'⟩
  · exact .inr ⟨e, s', rfl, by rw [move_eq, hupdate]⟩
  · exact .inl ⟨written, s', rfl, by rw [move_eq, hupdate]⟩

/-- The verdict on a failed write: another attempt, or the end of the migration. -/
theorem onWriteError_cases (m : Migration) (limit : Nat) (r : ResourceRef) (e : PlatformError) :
    (∃ w, m.onWriteError limit r e = .refused w) ∨ ∃ c, m.onWriteError limit r e = .failed c := by
  unfold onWriteError
  split
  · dsimp only
    split
    · exact .inr ⟨_, rfl⟩
    · exact .inl ⟨_, rfl⟩
  · exact .inr ⟨_, rfl⟩

theorem isLanded_onWriteError (m : Migration) (limit : Nat) (r : ResourceRef) (e : PlatformError) :
    (m.onWriteError limit r e).isLanded = false := by
  rcases m.onWriteError_cases limit r e with ⟨w, hw⟩ | ⟨c, hc⟩
  · rw [hw]
    rfl
  · rw [hc]
    rfl

/-- Whatever comes of a write, something does. -/
theorem move_ne_unchanged (client : Client σ) (limit : Nat) (m : Migration) (side : Side) (n : Int)
    (object : Workload) (s : σ) : (m.move client limit side n object s).1 ≠ .unchanged := by
  rcases move_cases client limit m side n object s with ⟨written, s', -, h⟩ | ⟨e, s', -, h⟩
  · rw [h]
    nofun
  · rw [h]
    rcases m.onWriteError_cases limit object.ref e with ⟨w, hw⟩ | ⟨c, hc⟩
    · rw [hw]
      nofun
    · rw [hc]
      nofun

/-- A write that landed was intended by an open migration. -/
theorem of_pass_landed {client : Client σ} {limit now : Nat} {m : Migration} {s : σ} {side : Side}
    {n generation : Int} (h : (m.pass client limit now s).1 = .landed side n generation) :
    ∃ src dst, m.isOpen now = true ∧ m.intent src dst = .write side n := by
  rcases pass_cases client limit now m s with
    ⟨v, s', hv, -, hpass⟩ | ⟨src, dst, s', side', n', hopen, -, hintent, hpass⟩
  · rw [hpass] at h
    subst h
    cases hv
  · rw [hpass] at h
    rcases move_cases client limit m side' n' (side'.pick src dst) s' with
      ⟨written, s'', -, hmove⟩ | ⟨e, s'', -, hmove⟩
    · rw [hmove] at h
      cases h
      exact ⟨src, dst, hopen, hintent⟩
    · rw [hmove] at h
      rcases onWriteError_cases m limit (side'.pick src dst).ref e with ⟨w, hw⟩ | ⟨c, hc⟩ <;>
        simp_all

/-! ## What a verdict leaves behind -/

/-- A migration that has ended is not ended again. -/
theorem finish_of_isTerminal (m : Migration) (h : m.isTerminal = true) (ending : Ending) :
    m.finish ending = m := by
  obtain ⟨e, he⟩ := Option.isSome_iff_exists.1 h
  unfold finish
  rw [he, Option.getD_some, ← he]

/-- The migration as a verdict leaves it. -/
def conclude (m : Migration) (now : Nat) (v : Verdict) : Migration :=
  match v.ending? now with
  | none => v.applyTo m
  | some ending => (v.applyTo m).finish ending

/-- The counters that a verdict leaves: they move only with a write that landed. -/
theorem counters_conclude (m : Migration) (now : Nat) (v : Verdict) :
    (m.conclude now v).counters =
      match v with
      | .landed side n _ => (m.advanceSide side n).counters
      | _ => m.counters := by
  cases v with
  | landed side n generation => cases side <;> rfl
  | failed cause => cases cause <;> rfl
  | unchanged => rfl
  | succeeded => rfl
  | refused e => rfl

/-- Unless a write landed, the counters stay. -/
theorem counters_conclude_of_not_isLanded {v : Verdict} (hv : v.isLanded = false) (m : Migration)
    (now : Nat) : (m.conclude now v).counters = m.counters := by
  rw [counters_conclude]
  cases v with
  | landed side n generation => cases hv
  | failed cause => rfl
  | unchanged => rfl
  | succeeded => rfl
  | refused e => rfl

/-- A failed write is counted if it is worth another attempt, and also if it was the last one. -/
theorem writeFailures_conclude_onWriteError (m : Migration) (limit now : Nat) (r : ResourceRef)
    (e : PlatformError) :
    (m.conclude now (m.onWriteError limit r e)).writeFailures =
      if e.retryable then keptCount (m.writeFailures + 1) else m.writeFailures := by
  unfold onWriteError
  split
  · dsimp only
    split <;> rfl
  · rfl

/-- A verdict changes neither what a migration is about nor what it pursues. -/
theorem conclude_eq (m : Migration) (now : Nat) (v : Verdict) :
    ((m.conclude now v).id, (m.conclude now v).src, (m.conclude now v).dst,
      (m.conclude now v).pair, (m.conclude now v).goal, (m.conclude now v).started) =
      (m.id, m.src, m.dst, m.pair, m.goal, m.started) := by
  cases v with
  | landed side n generation => cases side <;> rfl
  | failed cause => cases cause <;> rfl
  | unchanged => rfl
  | succeeded => rfl
  | refused e => rfl

@[simp]
theorem src_conclude (m : Migration) (now : Nat) (v : Verdict) : (m.conclude now v).src = m.src :=
  congrArg (·.2.1) (conclude_eq m now v)

@[simp]
theorem dst_conclude (m : Migration) (now : Nat) (v : Verdict) : (m.conclude now v).dst = m.dst :=
  congrArg (·.2.2.1) (conclude_eq m now v)

@[simp]
theorem goal_conclude (m : Migration) (now : Nat) (v : Verdict) :
    (m.conclude now v).goal = m.goal :=
  congrArg (·.2.2.2.2.1) (conclude_eq m now v)

@[simp]
theorem refOf_conclude (m : Migration) (now : Nat) (v : Verdict) (side : Side) :
    (m.conclude now v).refOf side = m.refOf side := by
  unfold refOf
  rw [src_conclude, dst_conclude]

/-- A verdict that ends a migration changes nothing else of it but the number of failed writes. -/
theorem conclude_of_ending {m : Migration} {now : Nat} {v : Verdict} {ending : Ending}
    (hexecuting : m.ending = none) (hending : v.ending? now = some ending) :
    m.conclude now v =
      { m with ending := some ending, writeFailures := (v.applyTo m).writeFailures } := by
  have hconclude : m.conclude now v = (v.applyTo m).finish ending := by
    unfold conclude
    rw [hending]
  rw [hconclude]
  cases v with
  | failed cause => cases cause <;> simp [Verdict.applyTo, finish, withWriteFailures, hexecuting]
  | succeeded => simp [Verdict.applyTo, finish, hexecuting]
  | unchanged => cases hending
  | landed side n generation => cases hending
  | refused e => cases hending

/-- A verdict leaves a migration executing just if it was and the verdict does not end it. -/
theorem ending_conclude_eq_none_iff (m : Migration) (now : Nat) (v : Verdict) :
    (m.conclude now v).ending = none ↔ v.ending? now = none ∧ m.ending = none := by
  have happly : (v.applyTo m).ending = m.ending := by
    cases v with
    | landed side n generation => cases side <;> rfl
    | failed cause => cases cause <;> rfl
    | unchanged => rfl
    | succeeded => rfl
    | refused e => rfl
  unfold conclude
  split
  · next hending => simp only [hending, happly, true_and]
  · next ending hending => simp [hending, finish]

end Migration

/-! ## What is recorded -/

theorem Table.ext_entries {κ ν : Type} {t u : Table κ ν} (h : t.entries = u.entries) : t = u := by
  cases t
  cases u
  cases h
  rfl

namespace Registry

variable {σ : Type}

@[simp]
theorem get?_release (g : Registry) (owner id : MigrationId) (r : ResourceRef) :
    (g.release owner r).get? id = g.get? id := by
  unfold release
  split <;> rfl

theorem get?_modify (g : Registry) (id other : MigrationId) (f : Migration → Migration) :
    (g.modify id f).get? other = if other = id then (g.get? other).map f else g.get? other :=
  Table.get?_modify g.migrations id other f

/-- Only what a change does to the known migration counts. -/
theorem modify_congr {g : Registry} {id : MigrationId} {m : Migration} (hm : g.get? id = some m)
    {f f' : Migration → Migration} (h : f m = f' m) : g.modify id f = g.modify id f' := by
  have hentries : (g.migrations.modify id f).entries = (g.migrations.modify id f').entries := by
    refine List.map_congr_left fun e he => ?_
    dsimp only
    by_cases hid : e.1 = id
    · have hget : g.get? e.1 = some e.2 := Table.get?_eq_some_iff.2 he
      rw [hid, hm] at hget
      rw [if_pos hid, if_pos hid, ← Option.some.inj hget, h]
    · rw [if_neg hid, if_neg hid]
  unfold modify
  rw [Table.ext_entries hentries]

/-- Finishing a migration finishes it, once; others stay as they are. -/
theorem get?_finish (g : Registry) (id other : MigrationId) (ending : Ending) :
    (g.finish id ending).2.get? other =
      if other = id then (g.get? other).map (·.finish ending) else g.get? other := by
  unfold finish
  cases hm : g.get? id with
  | none =>
    dsimp only
    by_cases h : other = id
    · rw [if_pos h, h, hm]; rfl
    · rw [if_neg h]
  | some m =>
    dsimp only
    by_cases hterminal : m.isTerminal = true
    · rw [if_pos hterminal]
      by_cases h : other = id
      · -- a migration that has ended keeps its ending
        rw [if_pos h, h, hm, Option.map_some, m.finish_of_isTerminal hterminal]
      · rw [if_neg h]
    · rw [if_neg hterminal, get?_release, get?_release, get?_modify]

/-- Recording a verdict concludes the migration; others stay as they are. -/
theorem get?_record (g : Registry) (id other : MigrationId) (now : Nat) (v : Verdict) :
    (g.record id now v).get? other =
      if other = id then (g.get? other).map (·.conclude now v) else g.get? other := by
  unfold record Migration.conclude
  cases hending : v.ending? now with
  | none => exact get?_modify g id other _
  | some ending =>
    dsimp only
    rw [get?_finish, get?_modify]
    split
    · rw [Option.map_map]; rfl
    · rfl

/-- A pass over a known migration concludes it with the verdict of the pass; others stay as they
are. -/
theorem get?_reconcile (g : Registry) (client : Client σ) (limit now : Nat)
    (id other : MigrationId) (s : σ) :
    (g.reconcile client limit now id s).2.1.get? other =
      if other = id then
        (g.get? other).map fun m => m.conclude now (m.pass client limit now s).1
      else g.get? other := by
  unfold reconcile
  by_cases h : other = id
  · subst h
    cases hm : g.get? other with
    | none => simp [hm]
    | some m => simp [get?_record, hm]
  · rw [if_neg h]
    cases hm : g.get? id with
    | none => rfl
    | some m => simp [get?_record, h]

/-- A pass over a migration that is not known calls nobody and changes nothing. -/
theorem reconcile_of_get?_eq_none {g : Registry} {id : MigrationId} (hm : g.get? id = none)
    (client : Client σ) (limit now : Nat) (s : σ) :
    g.reconcile client limit now id s = (.ok (), g, s) := by
  unfold reconcile
  rw [hm]

/-- A pass over a known migration answers and records the verdict of the pass. -/
theorem reconcile_eq_record {g : Registry} {id : MigrationId} {m : Migration}
    (h : g.get? id = some m) (client : Client σ) (limit now : Nat) (s : σ) :
    g.reconcile client limit now id s =
      ((m.pass client limit now s).1.answer, g.record id now (m.pass client limit now s).1,
        (m.pass client limit now s).2) := by
  unfold reconcile
  rw [h]

theorem reconcile_of_pass {g : Registry} {id : MigrationId} {m : Migration} {client : Client σ}
    {limit now : Nat} {s t : σ} {v : Verdict} (h : g.get? id = some m)
    (hpass : m.pass client limit now s = (v, t)) :
    g.reconcile client limit now id s = (v.answer, g.record id now v, t) := by
  rw [reconcile_eq_record h, hpass]

/-- After a pass over a known migration the registry has it concluded, and the client is in the
state that the pass leaves. -/
theorem reconcile_of_get? {g : Registry} {id : MigrationId} {m : Migration}
    (hm : g.get? id = some m) (client : Client σ) (limit now : Nat) (s : σ) :
    (g.reconcile client limit now id s).2.1.get? id =
        some (m.conclude now (m.pass client limit now s).1) ∧
      (g.reconcile client limit now id s).2.2 = (m.pass client limit now s).2 := by
  constructor
  · rw [get?_reconcile, if_pos rfl, hm, Option.map_some]
  · rw [reconcile_eq_record hm]

end Registry

end Handover
