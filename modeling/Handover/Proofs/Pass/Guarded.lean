import Handover.Proofs.Pass

/-!
# Guarded counting

Replica counts have 32 bits, and a pass computes with them unguarded except where it computes the
count that it is about to write. `plan?`, `Counters.after?` and `Migration.advance?` are the same
computations with a guard at every number on the way. On balanced counters no guard stops them
(`Counters.Balanced.plan?_eq`, `Counters.Balanced.after?_eq`, `Migration.advanceSide?_eq`), so the
unguarded ones never leave the range.
-/

namespace Handover

variable {target maxSurge : Int} {c : Counters} {o : Observation}

/-! ## Guarded computations -/

/-- A number, if it fits a replica count. -/
def count? (n : Int) : Option Int :=
  if inReplicaRange n then some n else none

theorem inReplicaRange_iff {n : Int} :
    inReplicaRange n = true ↔ -2147483648 ≤ n ∧ n ≤ 2147483647 :=
  IntRange.contains_iff

theorem count?_of_inRange {n : Int} (h : -2147483648 ≤ n ∧ n ≤ 2147483647) :
    count? n = some n :=
  if_pos (inReplicaRange_iff.2 h)

/-- How many replicas run beyond those taken from the source. -/
def Counters.lead? (c : Counters) : Option Int :=
  count? (c.dst - c.src)

/-- How many replicas the destination may still be given at once. -/
def outAmount? (target maxSurge : Int) (c : Counters) : Option Int := do
  let room ← count? (maxSurge - (← c.lead?))
  let left ← count? (target - c.dst)
  count? (min room left)

/-- How many replicas the source can still be relieved of at once. -/
def inAmount? (target : Int) (c : Counters) (o : Observation) : Option Int := do
  let left ← count? (target - c.src)
  let there ← count? (min o.srcDeclared left)
  count? (min there (← c.lead?))

/-- The step to take next. The amounts of both moves are computed even where one of them is not
asked for. -/
def plan? (target maxSurge : Int) (c : Counters) (o : Observation) : Option Step := do
  let given ← outAmount? target maxSurge c
  let taken ← inAmount? target c o
  if target ≤ c.src ∧ target ≤ c.dst then return .complete
  else if c.dst < target ∧ 0 < given then return .scaleOut given
  else if c.src < target ∧ 0 < taken then
    if o.dstDeclared = o.dstAvailable then return .scaleIn taken
    else return .wait .destinationUnavailable
  else return .wait .idle

/-- The counters after a step. -/
def Counters.after? (c : Counters) : Step → Option Counters
  | .scaleOut n => (count? (c.dst + n)).map fun dst => { c with dst }
  | .scaleIn n => (count? (c.src + n)).map fun src => { c with src }
  | .complete | .wait _ => some c

namespace Migration

/-- Count moved replicas, up to the target. -/
def advance? (m : Migration) (src dst : Int) : Option Migration := do
  let src ← count? (m.counters.src + max src 0)
  let dst ← count? (m.counters.dst + max dst 0)
  return { m with counters := ⟨min src m.goal.replicas, min dst m.goal.replicas⟩ }

/-- Count replicas moved on one side. -/
def advanceSide? (m : Migration) (side : Side) (amount : Int) : Option Migration :=
  match side with
  | .src => m.advance? amount 0
  | .dst => m.advance? 0 amount

end Migration

/-- Observed counts that fit. -/
structure Observation.InRange (o : Observation) : Prop where
  srcDeclared : inReplicaRange o.srcDeclared = true
  dstDeclared : inReplicaRange o.dstDeclared = true
  dstAvailable : inReplicaRange o.dstAvailable = true

/-- A goal whose target and surge bound are positive and fit. -/
structure Goal.InRange (goal : Goal) : Prop where
  one_le_replicas : 1 ≤ goal.replicas
  replicas_le : goal.replicas ≤ 2147483647
  one_le_maxSurge : 1 ≤ goal.maxSurge
  maxSurge_le : goal.maxSurge ≤ 2147483647

/-! ## No guard stops a computation on balanced counters -/

namespace Counters

theorem Balanced.lead?_eq (h : c.Balanced target maxSurge) (hs : maxSurge ≤ 2147483647) :
    c.lead? = some c.lead := by
  obtain ⟨hsrc, hle, hdst, hlead⟩ := h
  unfold lead at hlead
  exact count?_of_inRange (by omega)

theorem Balanced.outAmount?_eq (h : c.Balanced target maxSurge) (ht : target ≤ 2147483647)
    (hs : maxSurge ≤ 2147483647) :
    outAmount? target maxSurge c = some (outAmount target maxSurge c) := by
  have hlead := h.lead?_eq hs
  obtain ⟨hsrc, hle, hdst, hbound⟩ := h
  unfold outAmount? outAmount
  rw [hlead]
  unfold lead at *
  simp only [Option.bind_eq_bind, Option.bind_some]
  rw [count?_of_inRange (by omega), count?_of_inRange (by omega)]
  exact count?_of_inRange (by omega)

theorem Balanced.inAmount?_eq (h : c.Balanced target maxSurge) (ht : target ≤ 2147483647)
    (hs : maxSurge ≤ 2147483647) (ho : o.InRange) :
    inAmount? target c o = some (inAmount target c o) := by
  have hlead := h.lead?_eq hs
  have hdeclared := inReplicaRange_iff.1 ho.srcDeclared
  obtain ⟨hsrc, hle, hdst, hbound⟩ := h
  unfold inAmount? inAmount
  rw [hlead]
  unfold lead at *
  simp only [Option.bind_eq_bind, Option.bind_some]
  rw [count?_of_inRange (by omega), Option.bind_some, count?_of_inRange (by omega)]
  exact count?_of_inRange (by omega)

/-- Planning. -/
theorem Balanced.plan?_eq (h : c.Balanced target maxSurge) (ht : target ≤ 2147483647)
    (hs : maxSurge ≤ 2147483647) (ho : o.InRange) :
    plan? target maxSurge c o = some (plan target maxSurge c o) := by
  unfold plan? plan
  rw [h.outAmount?_eq ht hs, h.inAmount?_eq ht hs ho]
  simp only [Option.bind_eq_bind, Option.bind_some, Option.pure_def]
  split_ifs <;> rfl

/-- Taking the planned step. -/
theorem Balanced.after?_eq (h : c.Balanced target maxSurge) (ht : target ≤ 2147483647)
    (o : Observation) :
    c.after? (plan target maxSurge c o) = some (c.after (plan target maxSurge c o)) := by
  obtain ⟨hsrc, hle, hdst, -⟩ := h
  cases hplan : plan target maxSurge c o with
  | complete => rfl
  | wait reason => rfl
  | scaleOut n =>
    obtain ⟨hpos, hroom, -⟩ := of_plan_eq_scaleOut hplan
    have hcount : count? (c.dst + n) = some (c.dst + n) := count?_of_inRange (by omega)
    simp only [after?, after, hcount, Option.map_some]
  | scaleIn n =>
    obtain ⟨hpos, -, hleft, -⟩ := Handover.of_plan_eq_scaleIn hplan
    have hcount : count? (c.src + n) = some (c.src + n) := count?_of_inRange (by omega)
    simp only [after?, after, hcount, Option.map_some]

end Counters

namespace Migration

variable {m : Migration}

theorem advance?_eq {src dst : Int} (hsrc : inReplicaRange (m.counters.src + max src 0) = true)
    (hdst : inReplicaRange (m.counters.dst + max dst 0) = true) :
    m.advance? src dst = some (m.advance src dst) := by
  unfold advance? advance
  rw [count?_of_inRange (inReplicaRange_iff.1 hsrc), count?_of_inRange (inReplicaRange_iff.1 hdst)]
  rfl

/-- Counting a planned move. -/
theorem advanceSide?_eq (h : m.counters.Balanced m.goal.replicas m.goal.maxSurge)
    (ht : m.goal.replicas ≤ 2147483647) {side : Side} {n : Int}
    (hplan : plan m.goal.replicas m.goal.maxSurge m.counters o = side.step n) :
    m.advanceSide? side n = some (m.advanceSide side n) := by
  obtain ⟨hsrc, hle, hdst, -⟩ := h
  cases side with
  | src =>
    obtain ⟨hpos, -, hleft, -⟩ := of_plan_eq_scaleIn hplan
    exact advance?_eq (inReplicaRange_iff.2 (by omega)) (inReplicaRange_iff.2 (by omega))
  | dst =>
    obtain ⟨hpos, hroom, -⟩ := of_plan_eq_scaleOut hplan
    exact advance?_eq (inReplicaRange_iff.2 (by omega)) (inReplicaRange_iff.2 (by omega))

/-- All that a pass computes from an observation fits: how far the destination is ahead, the step,
the counters after it, and the counters as they are counted once it has landed. -/
structure ComputesInRange (m : Migration) (o : Observation) : Prop where
  lead_eq : m.counters.lead? = some m.counters.lead
  plan_eq : plan? m.goal.replicas m.goal.maxSurge m.counters o =
    some (plan m.goal.replicas m.goal.maxSurge m.counters o)
  after_eq : m.counters.after? (plan m.goal.replicas m.goal.maxSurge m.counters o) =
    some (m.counters.after (plan m.goal.replicas m.goal.maxSurge m.counters o))
  advance_eq : ∀ side n, plan m.goal.replicas m.goal.maxSurge m.counters o = side.step n →
    m.advanceSide? side n = some (m.advanceSide side n)

end Migration

end Handover
