import Handover.Proofs.Corridor
import Handover.Proofs.Finality
import Handover.Proofs.Lapse

/-!
# Replicas are conserved

A migration `Conserves` replicas if its counters account for the declared counts of its two objects,
have taken no more than was there and given no more than an object can declare, and are at the
target once the migration has succeeded. Every pass keeps this (`Migration.Conserves.after_pass`),
whatever it has read of what has been there, and so does a system that is left to itself with a
single migration (`Scene.Carries.lapse`). So a migration that succeeds had a target within what its
source declared at the start, although nothing compares the two.
-/

namespace Handover

/-! ## One pass -/

namespace Migration

/-- The migration has moved replicas between two objects that declared `N` and `D` of them at the
start, and has not made any up. -/
structure Conserves (m : Migration) (N D : Int) (p : Platform) : Prop where
  distinct : m.src ≠ m.dst
  balanced : m.counters.Balanced m.goal.replicas m.goal.maxSurge
  accounts : m.Accounts N D p
  taken : m.counters.src ≤ max N 0
  given : m.counters.dst = 0 ∨ inReplicaRange (D + m.counters.dst) = true
  at_target : m.phase = .succeeded → m.counters = ⟨m.goal.replicas, m.goal.replicas⟩

variable {m : Migration} {p : Platform} {N D : Int}
  {read : ResourceRef → Except PlatformError Workload}

theorem phase_eq_succeeded_iff :
    m.phase = .succeeded ↔ ∃ ending, m.ending = some ending ∧ ending.succeeded = true := by
  unfold phase
  cases m.ending with
  | none => simp
  | some e => cases hsucceeded : e.succeeded <;> simp [hsucceeded]

/-- What an object declares of which replicas are moved is what the account says. -/
theorem Accounts.declared_eq (h : m.Accounts N D p) {side : Side} {w : Workload}
    (hw : p.object? (m.refOf side) = some w) :
    w.declared = side.pick N D + side.change (m.counters.count side) :=
  Option.some.inj ((Platform.declared?_of_object? hw).symm.trans (h side))

/-- A pass takes no more from the source than it declares, and gives no more to the destination than
that can declare. -/
theorem Conserves.bounds_after_pass (h : m.Conserves N D p)
    (hread : ∀ r w, read r = .ok w → p.Held r w) (limit now : Nat) :
    let after := (m.conclude now (m.pass (Platform.clientReading read) limit now p).1).counters
    after.src ≤ max N 0 ∧ (after.dst = 0 ∨ inReplicaRange (D + after.dst) = true) := by
  intro after
  rcases pass_held_cases hread limit now m with
    ⟨-, hverdict⟩ | ⟨src, dst, side, n, -, -, -, hintent, -, -, hstored, hpass⟩
  · have hcounters : after = m.counters := counters_conclude_of_not_isLanded hverdict m now
    rw [hcounters]
    exact ⟨h.taken, h.given⟩
  · have hafter : after = m.counters.after (side.step n) := by
      show (m.conclude now (m.pass _ limit now p).1).counters = _
      rw [hpass, counters_conclude_landed h.balanced.within hintent]
    have hdeclared := h.accounts.declared_eq hstored
    obtain ⟨-, hplan, hrange⟩ := intent_eq_write_iff.1 hintent
    rw [hafter]
    cases side with
    | src =>
      -- what is left at the source bounds what is taken from it
      obtain ⟨-, hle, -⟩ := of_plan_eq_scaleIn hplan
      have hle : n ≤ src.declared := hle
      have hdeclared : src.declared = N + -m.counters.src := hdeclared
      have htaken : m.counters.src + n ≤ N := by omega
      exact ⟨htaken.trans (le_max_left N 0), h.given⟩
    | dst =>
      -- the new count of the destination was checked before it was written
      have hdeclared : dst.declared = D + m.counters.dst := hdeclared
      have hrange : inReplicaRange (dst.declared + n) = true := hrange
      rw [hdeclared, Int.add_assoc] at hrange
      exact ⟨h.taken, .inr hrange⟩

/-- A pass that leaves a migration succeeded leaves it at the target. -/
theorem Conserves.at_target_after_pass (h : m.Conserves N D p) {σ : Type} (client : Client σ)
    (limit now : Nat) (s : σ) :
    let t := m.conclude now (m.pass client limit now s).1
    t.phase = .succeeded → t.counters = ⟨m.goal.replicas, m.goal.replicas⟩ := by
  intro t hphase
  cases hterminal : m.isTerminal with
  | true =>
    have hsame : t = m := by
      show m.conclude now (m.pass client limit now s).1 = m
      rw [m.pass_of_isTerminal hterminal]
      rfl
    rw [hsame] at hphase ⊢
    exact h.at_target hphase
  | false =>
    obtain ⟨ending, hending, hsucceeded⟩ := phase_eq_succeeded_iff.1 hphase
    have hended : (m.pass client limit now s).1.ending? now ≠ none :=
      (isTerminal_conclude_iff hterminal now _).1 (Option.isSome_iff_exists.2 ⟨ending, hending⟩)
    obtain ⟨ending', hending'⟩ := Option.ne_none_iff_exists'.1 hended
    have hwithin : m.WithinTarget :=
      ⟨h.balanced.src_le_dst.trans h.balanced.dst_le_target, h.balanced.dst_le_target⟩
    obtain ⟨hresult, -, hcoherent, -⟩ := coherent_of_ending hwithin hterminal hending'
    obtain rfl : ending = ending' := Option.some.inj (hending.symm.trans hresult)
    exact (hcoherent hsucceeded).2

/-- A pass conserves replicas, whatever it has read of what has been there. -/
theorem Conserves.after_pass (h : m.Conserves N D p)
    (hread : ∀ r w, read r = .ok w → p.Held r w) (limit now : Nat) :
    (m.conclude now (m.pass (Platform.clientReading read) limit now p).1).Conserves N D
      (m.pass (Platform.clientReading read) limit now p).2 := by
  obtain ⟨htaken, hgiven⟩ := h.bounds_after_pass hread limit now
  refine ⟨?_, ?_, ?_, htaken, hgiven, ?_⟩
  · rw [src_conclude, dst_conclude]
    exact h.distinct
  · rw [goal_conclude]
    exact (balanced_conclude_pass h.balanced _ limit now p).1
  · exact h.accounts.after_pass_held hread h.distinct h.balanced limit now
  · rw [goal_conclude]
    exact h.at_target_after_pass _ limit now p

/-- What is said of replicas depends on the platform by what its objects declare. -/
theorem Conserves.congr (h : m.Conserves N D p) {q : Platform}
    (hdeclared : ∀ r, q.declared? r = p.declared? r) : m.Conserves N D q :=
  { h with accounts := fun side => (hdeclared _).trans (h.accounts side) }

/-- A migration that starts has not moved anything. -/
theorem conserves_start {id : MigrationId} {src dst : ResourceRef} {pair : Pair} {goal : Goal}
    {baseline : Generations} {now : Nat} (hne : src ≠ dst) (htarget : 1 ≤ goal.replicas)
    (hsurge : 1 ≤ goal.maxSurge) (hN : p.declared? src = some N) (hD : p.declared? dst = some D) :
    (start id src dst pair goal baseline now).Conserves N D p where
  distinct := hne
  balanced :=
    have hzero : Counters.zero.Balanced goal.replicas goal.maxSurge :=
      Counters.balanced_zero (by omega) (by omega)
    hzero
  accounts := fun side => by
    cases side with
    | src => exact hN.trans (congrArg some (Int.add_zero N).symm)
    | dst => exact hD.trans (congrArg some (Int.add_zero D).symm)
  taken := le_max_right N 0
  given := .inl rfl
  at_target := nofun

/-- What a migration has moved that succeeded was there to be moved. -/
theorem Conserves.of_succeeded (h : m.Conserves N D p) (hphase : m.phase = .succeeded)
    (htarget : 1 ≤ m.goal.replicas) :
    m.counters = ⟨m.goal.replicas, m.goal.replicas⟩ ∧ m.goal.replicas ≤ N ∧
      inReplicaRange (D + m.goal.replicas) = true := by
  have hcounters := h.at_target hphase
  have htaken : m.goal.replicas ≤ max N 0 := by
    have hle := h.taken
    rwa [hcounters] at hle
  have hgiven : m.goal.replicas = 0 ∨ inReplicaRange (D + m.goal.replicas) = true := by
    have hrange := h.given
    rwa [hcounters] at hrange
  refine ⟨hcounters, by omega, ?_⟩
  rcases hgiven with hzero | hrange
  · omega
  · exact hrange

end Migration

/-! ## Systems left to themselves -/

namespace Scene

/-- A scene in which a single migration is known, which conserves replicas. -/
structure Carries (id : MigrationId) (goal : Goal) (N D : Int) (s : Scene) : Prop where
  vigilant : s.Vigilant
  alone : ∀ other, other ≠ id → s.engine.registry.get? other = none
  known : ∃ m, s.engine.registry.get? id = some m ∧ m.goal = goal ∧
    m.Conserves N D s.system.platform

variable {s t : Scene} {id : MigrationId} {goal : Goal} {N D : Int}

/-- Whatever a system does on its own, replicas are conserved. -/
theorem Carries.step (h : s.Carries id goal N D) (hstep : s.Background t) :
    t.Carries id goal N D := by
  obtain ⟨hvigilant, halone, m, hm, hgoal, hconserves⟩ := h
  have hvigilant' := hvigilant.step hstep.step
  rcases hstep.cases hvigilant with hunmoved | ⟨other, k, hpasses⟩
  · refine ⟨hvigilant', ?_, m, ?_, hgoal, hconserves.congr hunmoved.declared?_eq⟩
    · rw [hunmoved.registry_eq]
      exact halone
    · rw [hunmoved.registry_eq, hm]
  · obtain ⟨hknown, read, limit, now, hread, hregistry, hplatform⟩ := hpasses
    -- the pass is over the one migration that is known
    obtain rfl : other = id := by
      by_contra hne
      rw [halone other hne] at hknown
      cases hknown
    obtain rfl : k = m := Option.some.inj (hknown.symm.trans hm)
    refine ⟨hvigilant', fun third hne => ?_,
      k.conclude now (k.pass (Platform.clientReading read) limit now s.system.platform).1, ?_,
      (k.goal_conclude now _).trans hgoal, ?_⟩
    · rw [hregistry, Registry.get?_record, if_neg hne]
      exact halone third hne
    · rw [hregistry, Registry.get?_record, if_pos rfl, hm]
      rfl
    · rw [hplatform]
      exact hconserves.after_pass hread limit now

theorem Carries.lapse (h : s.Carries id goal N D) (hlapse : s.Lapse t) :
    t.Carries id goal N D := by
  induction hlapse with
  | refl => exact h
  | tail _ hstep ih => exact ih.step hstep

end Scene

end Handover
