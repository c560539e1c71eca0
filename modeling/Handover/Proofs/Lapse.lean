import Handover.Proofs.Convergence
import Handover.Proofs.Platform.Declared
import Handover.Proofs.Quiescence

/-!
# Systems that are left to themselves

What a system does on its own, in any order, it does by passes over the migrations it knows; nothing
else changes what it knows or what the objects of its platform declare (`Scene.Background.cases`).
Letting time pass is one way in which this can go (`Scene.exists_lapse_moveTo`), and so is waiting
for the end of a migration (`Scene.waits_poll`).
-/

namespace Handover

open Worker (stateOf?)

namespace Scene

variable {s t : Scene} {id : MigrationId}

/-! ## One step -/

/-- From one scene to another nothing was learnt of migrations, and every object declares what it
did. -/
structure Unmoved (s t : Scene) : Prop where
  registry_eq : t.engine.registry = s.engine.registry
  declared?_eq : ∀ r, t.system.platform.declared? r = s.system.platform.declared? r

/-- From one scene to another there was a pass over a migration, which has read objects as they are
or have been. -/
structure Passes (id : MigrationId) (m : Migration) (s t : Scene) : Prop where
  known : s.engine.registry.get? id = some m
  exists_pass : ∃ read limit now, (∀ r w, read r = .ok w → s.system.platform.Held r w) ∧
    t.engine.registry = s.engine.registry.record id now
      (m.pass (Platform.clientReading read) limit now s.system.platform).1 ∧
    t.system.platform = (m.pass (Platform.clientReading read) limit now s.system.platform).2

/-- A worker that finishes a pass, whatever it has read of what has been there, has made one or has
found the migration unknown. -/
theorem finishPass_cases (s : Scene) (n : Nat) (id : MigrationId)
    (read : ResourceRef → Except PlatformError Workload)
    (hread : ∀ r w, read r = .ok w → s.system.platform.Held r w) :
    s.Unmoved (s.next (s.finishPass n id read)) ∨
      ∃ m, s.Passes id m (s.next (s.finishPass n id read)) := by
  have hfinish : ∀ result, s.engine.processHeld (Platform.clientReading read) s.system.now n id
      s.system.platform = result →
      (s.next (s.finishPass n id read)).engine = result.1 ∧
        (s.next (s.finishPass n id read)).system.platform = result.2 := by
    rintro result rfl
    exact ⟨rfl, rfl⟩
  obtain ⟨hengine, hplatform⟩ := hfinish _ (Engine.processHeld_eq ..)
  cases hm : s.engine.registry.get? id with
  | none =>
    rw [hm] at hengine hplatform
    refine .inl ⟨?_, fun r => by rw [hplatform]⟩
    rw [hengine]
    exact s.engine.registry.record_unchanged id s.system.now
  | some m =>
    rw [hm] at hengine hplatform
    refine .inr ⟨m, hm, read, s.engine.retryLimit, s.system.now, hread, ?_, hplatform⟩
    rw [hengine]
    rfl

/-- An activity of the engine is a pass, or nothing is learnt by it and nothing declared. -/
theorem activity_cases (hs : s.Vigilant) {a : Activity} {f : Engine} {q : Platform}
    (hperform : s.engine.perform Platform.client s.system.now a s.system.platform = some (f, q)) :
    let t := s.next { s.system with
      migrator := { s.system.migrator with engine := f }, platform := q }
    s.Unmoved t ∨ ∃ id m, s.Passes id m t := by
  cases a with
  | deliver index =>
    obtain ⟨f', hdeliver, heq⟩ := Option.map_eq_some_iff.1 hperform
    cases heq
    obtain ⟨b, c, queue, -, -, rfl⟩ := Engine.of_deliver hdeliver
    exact .inl ⟨rfl, fun _ => rfl⟩
  | process n =>
    -- the worker reads the platform as it is
    obtain ⟨id, -, hresult⟩ := Engine.of_perform_process hperform
    rw [processHeld_client] at hresult
    have hcases := s.finishPass_cases n id _ (Platform.held_of_get (Engine.Vigilant.sound hs))
    unfold finishPass at hcases
    rw [hresult] at hcases
    exact hcases.imp_right fun ⟨m, hm⟩ => ⟨id, m, hm⟩
  | wake n =>
    obtain ⟨-, hresult⟩ := Engine.of_perform_wake hperform
    cases hresult
    refine .inl ⟨?_, fun _ => rfl⟩
    show (s.engine.afterWake n).registry = s.engine.registry
    unfold Engine.afterWake Engine.afterHandout
    dsimp only
    split <;> rfl
  | expire =>
    obtain ⟨queue, -, heq⟩ := Option.map_eq_some_iff.1 hperform
    cases heq
    exact .inl ⟨rfl, fun _ => rfl⟩

/-- Every step that a system takes on its own is a pass, or nothing is learnt by it and nothing
declared. -/
theorem Background.cases (hs : s.Vigilant) (h : s.Background t) :
    s.Unmoved t ∨ ∃ id m, s.Passes id m t := by
  cases h with
  | work w y hperform =>
    cases w with
    | engine a =>
      obtain ⟨⟨f, q⟩, hactivity, rfl⟩ := Option.map_eq_some_iff.1 hperform
      exact activity_cases hs hactivity
    | controller index =>
      obtain ⟨c, d, q, -, hstep, rfl⟩ := System.exists_of_perform_controller hperform
      refine .inl ⟨rfl, fun r => ?_⟩
      rcases Controller.exists_reports_of_step? hstep with rfl | ⟨op, hop, rfl⟩
      · rfl
      · exact Platform.declared?_of_reports (Engine.Vigilant.sound hs) op hop r
  | late n id read hholds hread =>
    -- the worker has read the platform as it was at some time
    have hheld : ∀ r w, read r = .ok w → s.system.platform.Held r w := by
      intro r w hr
      obtain ⟨q, hq, hget⟩ := hread r
      obtain ⟨hsound, hevolves⟩ := Engine.Vigilant.past hs n q hq
      exact ⟨q, hsound, hevolves, Platform.object?_of_get (hget.symm.trans hr)⟩
    exact (s.finishPass_cases n id read hheld).imp_right fun ⟨m, hm⟩ => ⟨id, m, hm⟩
  | elapse time hle => exact .inl ⟨rfl, fun _ => rfl⟩

/-! ## Lapses -/

theorem Lapse.vigilant (h : s.Lapse t) (hs : s.Vigilant) : t.Vigilant := by
  induction h with
  | refl => exact hs
  | tail _ hstep ih => exact ih.step hstep.step

theorem Unmoved.trans {u : Scene} (h : s.Unmoved t) (h' : t.Unmoved u) : s.Unmoved u where
  registry_eq := h'.registry_eq.trans h.registry_eq
  declared?_eq := fun r => (h'.declared?_eq r).trans (h.declared?_eq r)

/-- A system that knows of no migration learns of none on its own, and nothing moves. -/
theorem Lapse.unmoved (h : s.Lapse t) (hs : s.Vigilant)
    (hempty : ∀ id, s.engine.registry.get? id = none) : s.Unmoved t := by
  induction h with
  | refl => exact ⟨rfl, fun _ => rfl⟩
  | tail hlapse hstep ih =>
    rcases hstep.cases (Lapse.vigilant hlapse hs) with hunmoved | ⟨id, m, hpasses⟩
    · exact ih.trans hunmoved
    · -- there is no migration to pass over
      have hknown := hpasses.known
      rw [ih.registry_eq, hempty] at hknown
      cases hknown

/-! ## Time -/

theorem now_perform {w : Work} {y z : System} (h : y.perform w = some z) : z.now = y.now := by
  cases w with
  | engine a =>
    obtain ⟨⟨f, q⟩, -, rfl⟩ := Option.map_eq_some_iff.1 h
    rfl
  | controller index =>
    obtain ⟨c, d, q, -, -, rfl⟩ := System.exists_of_perform_controller h
    rfl

/-- All work that can be done now is done without time passing. -/
theorem now_work (fuel : Nat) (s : Scene) : (s.work fuel).system.now = s.system.now := by
  induction fuel generalizing s with
  | zero => rfl
  | succ fuel ih =>
    unfold work
    split
    · rfl
    · next y hstep =>
      obtain ⟨w, -, hperform⟩ := List.exists_of_findSome?_eq_some hstep
      rw [ih]
      exact now_perform hperform

/-- To do all work that can be done now is a lapse. -/
theorem exists_lapse_run (s : Scene) :
    ∃ t, s.Lapse t ∧ t.system = Clockwork.run s.system ∧ t.system.now = s.system.now :=
  ⟨s.work (Clockwork.bound s.system), lapse_work _ s, system_work _ s, now_work _ s⟩

theorem lapse_setNow {time : Nat} (hle : s.system.now ≤ time) :
    s.Lapse (s.next (Clockwork.setNow time s.system)) :=
  .single (.elapse time hle)

theorem exists_lapse_approach {time : Nat} (stops : Nat) (hle : s.system.now ≤ time) :
    ∃ t, s.Lapse t ∧ t.system = Clockwork.approach time stops s.system := by
  induction stops generalizing s with
  | zero => exact ⟨_, lapse_setNow hle, rfl⟩
  | succ stops ih =>
    unfold Clockwork.approach
    split
    · exact ⟨_, lapse_setNow hle, rfl⟩
    · next due hdue =>
      split
      · exact ⟨_, lapse_setNow hle, rfl⟩
      · -- the clock stops at what is due before the time
        next hlt =>
        have hstop : s.Lapse (s.next (Clockwork.setNow (max due s.system.now) s.system)) :=
          lapse_setNow (Nat.le_max_right _ _)
        obtain ⟨t, hrun, hsystem, hnow⟩ :=
          exists_lapse_run (s.next (Clockwork.setNow (max due s.system.now) s.system))
        have hbefore : t.system.now ≤ time := by
          rw [hnow]
          exact Nat.max_le.2 ⟨Nat.le_of_not_le hlt, hle⟩
        obtain ⟨u, hrest, hu⟩ := ih hbefore
        refine ⟨u, (hstop.trans hrun).trans hrest, ?_⟩
        rw [hu, hsystem]
        rfl

/-- To let time pass is a lapse. -/
theorem exists_lapse_moveTo {time : Nat} (hle : s.system.now ≤ time) :
    ∃ t, s.Lapse t ∧ t.system = Clockwork.moveTo time s.system := by
  obtain ⟨t, hrun, hsystem, hnow⟩ := exists_lapse_run s
  obtain ⟨u, hrest, hu⟩ := exists_lapse_approach (time - s.system.now) (hnow ▸ hle)
  refine ⟨u, hrun.trans hrest, ?_⟩
  rw [hu, hsystem]
  rfl

/-! ## Waiting -/

/-- What a caller can be told who waits for the end of a migration: that it has ended; that it is
not known any more; or, while it executes, that the time is over. -/
inductive Waits (p : Polling) (s : Scene) : Except MigrationError Snapshot → Prop
  | ended {t : Scene} {snapshot : Snapshot} (h : s.Lapse t)
      (hquery : t.system.migrator.query p.id = .ok snapshot)
      (hterminal : snapshot.phase.isTerminal = true) : Waits p s (.ok snapshot)
  | unknown {t : Scene} {e : MigrationError} (h : s.Lapse t)
      (hquery : t.system.migrator.query p.id = .error e) : Waits p s (.error e)
  | expired {t : Scene} {snapshot : Snapshot} (h : s.Lapse t)
      (hquery : t.system.migrator.query p.id = .ok snapshot)
      (hexecuting : snapshot.phase.isTerminal = false) : Waits p s (.error p.timeout)

/-- Polling is waiting: between two queries there is a lapse. -/
theorem waits_loop {t : Scene} (p : Polling) (remaining time : Nat) (last : Option Snapshot)
    (reports : Array Report) (times : Array Nat) (h : s.Lapse t) :
    s.Waits p (p.loop (·.migrator.query p.id)
      (fun y => Clockwork.moveTo (y.now + p.period) y) remaining time last reports times
      t.system).outcome := by
  unfold Polling.loop
  cases hquery : t.system.migrator.query p.id with
  | error e => exact .unknown h hquery
  | ok snapshot =>
    dsimp only
    split
    · next hterminal => exact .ended h hquery hterminal
    · next hexecuting =>
      cases remaining with
      | zero => exact .expired h hquery (Bool.eq_false_iff.2 hexecuting)
      | succ remaining =>
        obtain ⟨u, hlapse, hu⟩ := exists_lapse_moveTo (Nat.le_add_right t.system.now p.period)
        rw [← hu]
        exact waits_loop p remaining _ _ _ _ (h.trans hlapse)

theorem waits_poll (p : Polling) (s : Scene) : s.Waits p (s.system.poll p).outcome :=
  waits_loop p p.rounds 0 none #[] #[] .refl

end Scene

end Handover
