import Handover.Proofs.Convergence
import Handover.Proofs.Engine.Retreat
import Handover.Proofs.Ownership
import Handover.Proofs.Quiescence

/-!
# Shutdown is final

A migrator may be told to stop at any time, with items pending, delayed or being processed and with
events unread. A shutdown has returned (`Scene.ShutsDown`) when steps in any order have led to a
system in which all that the migrator had started has come to its end. The system's own order leads
there, because each step of the engine uses up some of what is left to do
(`System.stopped_exhaust`). Then the engine is stopped, and it stays so whatever happens
(`System.Later`): the migrator neither calls the platform nor changes what it knows, and it refuses
whatever it is asked to do. Calls that were under way may still be carried out (`System.Aftermath`);
they may add to what the migrator knows, but the engine stays deserted. `Scene.shutdown_is_final` is
the whole.
-/

namespace Handover

open Worker (stateOf?)

/-! ## The way out -/

/-- How many steps a worker takes until it is gone, once the queue has been shut down. -/
def WorkerState.stepsLeft : WorkerState → Nat
  | idle => 1
  | holding _ => 2
  | gone => 0

theorem WorkerState.stepsLeft_le (state : WorkerState) : state.stepsLeft ≤ 2 := by
  cases state <;> simp [stepsLeft]

/-- How many steps a subscription takes until it has ended, once it was told to stop. -/
def Subscription.stepsLeft (b : Subscription) : Nat :=
  (!b.ended).toNat

/-- How many steps are left to an engine that was told to stop. -/
def Engine.stepsLeft (e : Engine) : Nat :=
  (e.workers.map (·.state.stepsLeft)).sum + (e.subscriptions.map Subscription.stepsLeft).sum +
    e.queue.delayed.length

theorem Worker.sum_stepsLeft_set_lt {workers : List Worker} {n : Nat} {old : WorkerState}
    (h : stateOf? workers n = some old) {new : WorkerState} (hlt : new.stepsLeft < old.stepsLeft) :
    ((Worker.set workers n new).map (·.state.stepsLeft)).sum <
      (workers.map (·.state.stepsLeft)).sum := by
  obtain ⟨w, hw, rfl⟩ := Option.map_eq_some_iff.1 h
  have hset : Worker.set workers n new = workers.set n { w with state := new } := by
    unfold Worker.set
    rw [List.modify_eq_set_getElem?, hw]
    rfl
  have hsum := System.sum_map_set_lt (f := fun w : Worker => w.state.stepsLeft)
    (g := fun w => w.state.stepsLeft) (k := 0) (b := { w with state := new }) hw hlt
    fun _ _ => le_refl _
  rwa [Nat.zero_mul, Nat.add_zero, ← hset] at hsum

namespace Engine

variable {σ : Type} {e f : Engine} {s t : σ} {p : Platform} {now : Nat}

/-- Each way of parting uses up some of what is left to do. -/
theorem Leaving.stepsLeft_lt (h : e.Leaving) (hparting : Parting e s f t) :
    f.stepsLeft < e.stepsLeft := by
  unfold stepsLeft
  cases hparting with
  | ends index b hb hrunning =>
    have hlt : Subscription.stepsLeft { b with ended := true } < b.stepsLeft := by
      unfold Subscription.stepsLeft
      rw [hrunning]
      exact Nat.zero_lt_one
    have hsum := System.sum_map_set_lt (f := Subscription.stepsLeft) (g := Subscription.stepsLeft)
      (k := 0) hb hlt fun _ _ => le_refl _
    dsimp only
    omega
  | finishes n id hholds now v failures t =>
    have hlt : WorkerState.idle.stepsLeft < (WorkerState.holding id).stepsLeft := Nat.one_lt_two
    have hsum := Worker.sum_stepsLeft_set_lt hholds hlt
    dsimp only
    omega
  | goes n hn =>
    have hidle := (h.mem_ready_iff n).1 hn
    have hlt : WorkerState.gone.stepsLeft < WorkerState.idle.stepsLeft := Nat.zero_lt_one
    have hsum := Worker.sum_stepsLeft_set_lt hidle hlt
    dsimp only
    omega
  | drops d rest hperm =>
    have hlength := hperm.length_eq
    rw [List.length_cons] at hlength
    dsimp only
    omega

/-- An engine that can do nothing more has been left by all its workers. -/
theorem Leaving.stopped_of_still (h : e.Leaving) (hstill : e.Still now p) : e.Stopped := by
  refine ⟨⟨h.toTold, fun n state hn => ?_⟩, fun b hb => ?_⟩
  · cases state with
    | idle =>
      have hready := (h.mem_ready_iff n).2 hn
      rw [hstill.ready_eq_nil] at hready
      cases hready
    | holding id => exact absurd hn (hstill.not_holding n id)
    | gone => rfl
  · obtain ⟨index, hindex⟩ := List.mem_iff_getElem?.1 hb
    have hactivity : Activity.deliver index ∈ e.activities := by
      have hlt := (List.getElem?_eq_some_iff.1 hindex).1
      unfold activities
      simp [hlt]
    by_contra hrunning
    -- a subscription that has not ended would end
    have hperform := hstill _ hactivity
    unfold perform deliver Subscription.step? at hperform
    simp [hindex, h.stopped, hrunning] at hperform

end Engine

namespace System

variable {y z : System} {id : MigrationId}

/-- A step in a system's own order is one of its engine, or its engine is still. -/
theorem of_step? (h : Clockwork.step? y = some z) :
    (∃ a f q, y.migrator.engine.perform Platform.client y.now a y.platform = some (f, q) ∧
      z = { y with migrator := { y.migrator with engine := f }, platform := q }) ∨
    (y.migrator.engine.Still y.now y.platform ∧ z.migrator = y.migrator) := by
  have h : (y.migrator.engine.activities.map Work.engine ++
      (List.range y.controllers.length).map Work.controller).findSome? y.perform = some z := h
  rw [List.findSome?_append] at h
  cases hengine : (y.migrator.engine.activities.map Work.engine).findSome? y.perform with
  | some z' =>
    rw [hengine, Option.some_or] at h
    cases h
    obtain ⟨w, hw, hperform⟩ := List.exists_of_findSome?_eq_some hengine
    obtain ⟨a, -, rfl⟩ := List.mem_map.1 hw
    obtain ⟨⟨f, q⟩, hactivity, rfl⟩ := Option.map_eq_some_iff.1 hperform
    exact .inl ⟨a, f, q, hactivity, rfl⟩
  | none =>
    rw [hengine, Option.none_or] at h
    refine .inr ⟨fun a ha => ?_, ?_⟩
    · have hperform := List.findSome?_eq_none_iff.1 hengine _ (List.mem_map_of_mem ha)
      exact Option.map_eq_none_iff.1 hperform
    · obtain ⟨w, hw, hperform⟩ := List.exists_of_findSome?_eq_some h
      obtain ⟨index, -, rfl⟩ := List.mem_map.1 hw
      obtain ⟨c, d, q, -, -, rfl⟩ := exists_of_perform_controller hperform
      rfl

/-- A step on the way out. -/
theorem leaving_step (h : y.migrator.engine.Leaving) (hstep : Clockwork.step? y = some z) :
    z.migrator.engine.Leaving ∧
      (∀ id, y.migrator.engine.Unheld id → z.migrator.engine.Unheld id ∧
        z.migrator.engine.registry.get? id = y.migrator.engine.registry.get? id) ∧
      (y.migrator.engine.Stopped → z.migrator.engine.Stopped) ∧
      (z.migrator.engine.Stopped ∨
        z.migrator.engine.stepsLeft < y.migrator.engine.stepsLeft) := by
  rcases of_step? hstep with ⟨a, f, q, hperform, rfl⟩ | ⟨hstill, hsame⟩
  -- the engine comes first: a controller has its turn only when the engine can do nothing
  · have hparting := h.toTold.parting hperform
    exact ⟨h.after_parting hparting, fun id hid => hparting.unheld hid,
      fun hstopped => hstopped.after_parting hparting, .inr (h.stepsLeft_lt hparting)⟩
  · rw [hsame]
    exact ⟨h, fun id hid => ⟨hid, rfl⟩, fun hstopped => hstopped, .inl (h.stopped_of_still hstill)⟩

/-- With enough steps on the way out the engine is stopped, and migrations that no worker was at
work on are as they were. -/
theorem stopped_exhaust (fuel : Nat) (h : y.migrator.engine.Leaving)
    (hfuel : y.migrator.engine.Stopped ∨ y.migrator.engine.stepsLeft < fuel) :
    let z := exhaust Clockwork.step? fuel y
    z.migrator.engine.Stopped ∧ ∀ id, y.migrator.engine.Unheld id →
      z.migrator.engine.registry.get? id = y.migrator.engine.registry.get? id := by
  -- controllers may have steps after the engine is stopped, and there the measure does not go down
  induction fuel generalizing y with
  | zero => exact ⟨hfuel.resolve_right (Nat.not_lt_zero _), fun id _ => rfl⟩
  | succ fuel ih =>
    unfold exhaust
    cases hstep : Clockwork.step? y with
    | none =>
      have hstill := Scene.still_of_quiet (s := ⟨y, fun _ => []⟩) hstep
      exact ⟨h.stopped_of_still hstill, fun id _ => rfl⟩
    | some z =>
      obtain ⟨hleaving, hunheld, hkeep, hleft⟩ := leaving_step h hstep
      have hfuel' : z.migrator.engine.Stopped ∨ z.migrator.engine.stepsLeft < fuel := by
        rcases hfuel with hstopped | hlt
        · exact .inl (hkeep hstopped)
        · exact hleft.imp_right fun hlt' => by omega
      obtain ⟨hstopped, hget⟩ := ih hleaving hfuel'
      refine ⟨hstopped, fun id hid => ?_⟩
      obtain ⟨hid', hsame⟩ := hunheld id hid
      exact (hget id hid').trans hsame

/-- A system does more steps than are left to its engine. -/
theorem stepsLeft_lt_bound (y : System) :
    y.migrator.engine.stepsLeft < Clockwork.bound y := by
  have hworkers := sum_map_le_add (f := fun _ => 0) (k := 2)
    fun (w : Worker) (_ : w ∈ y.migrator.engine.workers) => by
      show w.state.stepsLeft ≤ 0 + 2
      exact w.state.stepsLeft_le
  have hsubscriptions := sum_map_le_add (g := Subscription.stepsLeft) (f := fun _ => 0) (k := 1)
    fun (b : Subscription) (_ : b ∈ y.migrator.engine.subscriptions) => by
      show (!b.ended).toNat ≤ 0 + 1
      exact Bool.toNat_le _
  simp only [List.map_const', List.sum_replicate_nat, Nat.mul_zero, Nat.zero_add]
    at hworkers hsubscriptions
  have hbound : ∀ weight, 2 * weight < boundOf weight := fun weight => by
    unfold boundOf
    calc 2 * weight < (weight + 8) * 8 := by omega
      _ ≤ (weight + 8) * (weight + 8) := by gcongr; omega
      _ ≤ (weight + 8) * (weight + 8) * (weight + 8) := Nat.le_mul_of_pos_right _ (by omega)
  have hweight : y.migrator.engine.subscriptions.length + y.migrator.engine.workers.length +
      y.migrator.engine.queue.delayed.length ≤ y.migrator.engine.weight := by
    unfold Engine.weight
    omega
  refine lt_of_le_of_lt ?_ (hbound _)
  unfold Engine.stepsLeft
  omega

theorem stopped_run (h : y.migrator.engine.Leaving) :
    (Clockwork.run y).migrator.engine.Stopped ∧ ∀ id, y.migrator.engine.Unheld id →
      (Clockwork.run y).migrator.engine.registry.get? id = y.migrator.engine.registry.get? id :=
  stopped_exhaust (Clockwork.bound y) h (.inr y.stepsLeft_lt_bound)

/-! ## Shutdowns -/

/-- The system after its migrator was told to stop. -/
def told (y : System) : System :=
  { y with migrator := y.migrator.requestStop }

/-- The system when what its migrator has started is no longer counted. -/
def dismissed (y : System) : System :=
  { y with migrator := y.migrator.dismiss }

/-- There is background work to do in a shutdown only if something has not come to its end. -/
theorem shutdown_eq (y : System) :
    y.shutdown =
      (if y.told.migrator.isStopped then y.told else Clockwork.run y.told).dismissed :=
  rfl

end System

namespace Scene

variable {s t : Scene} {z : System} {settings : Settings} {capacity : Nat} {firstId : MigrationId}

/-- A shutdown of a scene's migrator has returned with a system: the migrator was told to stop,
there were steps in any order, and when all that it had started had come to its end that was no
longer counted. -/
def ShutsDown (s : Scene) (z : System) : Prop :=
  ∃ t, Reach (s.next s.system.told) t ∧ t.system.migrator.isStopped = true ∧
    z = t.system.dismissed

/-- No step changes whether the engine was told to stop. -/
theorem Step.keeps (h : Step s t) : s.engine.Keeps t.engine := by
  cases h with
  | work w y hperform =>
    cases w with
    | engine a =>
      obtain ⟨⟨f, q⟩, hactivity, rfl⟩ := Option.map_eq_some_iff.1 hperform
      exact Engine.keeps_perform hactivity
    | controller index =>
      obtain ⟨c, d, q, -, -, rfl⟩ := System.exists_of_perform_controller hperform
      exact .refl s.engine
  | late n id read hholds hread => exact Engine.keeps_processHeld _ _ n id s.engine _
  | submit src dst request => exact Engine.keeps_submit _ _ _ src dst request s.system.migrator _
  | claim m hexecuting hpair => exact Engine.keeps_claim _ m s.engine _
  | create src dst copyReplicas => exact .refl s.engine
  | operate op => exact .refl s.engine
  | control controllers => exact .refl s.engine
  | elapse time hle => exact .refl s.engine

theorem Reach.keeps (h : Reach s t) : s.engine.Keeps t.engine := by
  induction h with
  | refl => exact .refl s.engine
  | tail _ hstep ih => exact ih.trans hstep.keeps

/-- All workers and subscriptions of a scene are counted. -/
theorem Reach.held (h : Reach (start settings capacity firstId) s) :
    (∀ w ∈ s.engine.workers, w.held = true) ∧ ∀ b ∈ s.engine.subscriptions, b.held = true := by
  refine ⟨h.keeps.workers_held fun w hw => ?_, h.keeps.subscriptions_held fun b hb => nomatch hb⟩
  have hw : w ∈ List.replicate (max settings.workers 1) ⟨.idle, true⟩ := hw
  rw [List.eq_of_mem_replicate hw]

/-- When a shutdown has returned the engine is stopped. -/
theorem ShutsDown.stopped (hreach : Reach (start settings capacity firstId) s)
    (h : s.ShutsDown z) : z.migrator.engine.Stopped := by
  obtain ⟨t, ht, hstopped, rfl⟩ := h
  obtain ⟨hworkers, hsubscriptions⟩ := hreach.held
  -- being told to stop stays, and so does being counted, whatever happens while the workers leave
  have htold : t.engine.Told := (Engine.told_requestStop s.engine).of_keeps ht.keeps
  have hengine : t.engine.Stopped := htold.stopped_of_isStopped
    (ht.keeps.workers_held hworkers) (ht.keeps.subscriptions_held hsubscriptions) hstopped
  exact hengine.dismiss

/-- In the system's own order a shutdown returns, and migrations that no worker was at work on are
as they were. -/
theorem shutsDown_shutdown (hreach : Reach (start settings capacity firstId) s) :
    s.ShutsDown s.system.shutdown ∧ ∀ id, s.engine.Unheld id →
      s.system.shutdown.migrator.engine.registry.get? id = s.engine.registry.get? id := by
  have hleaving : s.system.told.migrator.engine.Leaving :=
    Engine.Vigilant.leaving_requestStop hreach.vigilant
  rw [System.shutdown_eq]
  by_cases hdone : s.system.told.migrator.isStopped = true
  · rw [if_pos hdone]
    exact ⟨⟨s.next s.system.told, .refl, hdone, rfl⟩, fun id _ => rfl⟩
  · rw [if_neg hdone]
    obtain ⟨hstopped, hget⟩ := System.stopped_run hleaving
    obtain ⟨t, ht, hrun⟩ : ∃ t, Reach (s.next s.system.told) t ∧
        t.system = Clockwork.run s.system.told :=
      ⟨_, reach_work (Clockwork.bound s.system.told) _, system_work _ _⟩
    rw [← hrun] at hstopped hget ⊢
    exact ⟨⟨t, ht, hstopped.isStopped, rfl⟩, hget⟩

end Scene

/-! ## Afterwards -/

/-- Whatever client a migrator has, be it one that keeps a record of all calls, nothing that the
migrator does on its own or is asked to do changes the client's state. It learns nothing, makes
nothing pending, and refuses whatever it is asked. -/
def Migrator.Inert (m : Migrator) : Prop :=
  ∀ (σ : Type) (client : Client σ) (now : Nat) (s : σ),
    (∀ a e t, m.engine.perform client now a s = some (e, t) →
      t = s ∧ e.registry = m.engine.registry ∧ e.queue.pending = m.engine.queue.pending) ∧
    (∀ id src dst request,
      m.submit client now id src dst request s = (.error .shuttingDown, m, s)) ∧
    ∀ src dst copyReplicas, m.create client src dst copyReplicas s = (.error .shuttingDown, s)

theorem Engine.Deserted.inert {m : Migrator} (h : m.engine.Deserted) : m.Inert := by
  intro σ client now s
  refine ⟨fun a e t hperform => ?_, fun id src dst request => if_pos h.shuttingDown,
    fun src dst copyReplicas => if_pos h.shuttingDown⟩
  obtain ⟨-, hregistry, hpending, hstate⟩ := h.after_parting (h.toTold.parting hperform)
  exact ⟨hstate, hregistry, hpending⟩

/-- What a shutdown, and the work that is left, can make of an engine. -/
inductive Engine.Departure (e : Engine) : Engine → Prop
  | parts (p q : Platform) (f : Engine) (h : Parting e p f q) : Departure e f
  | stop : Departure e e.requestStop
  | dismiss : Departure e e.dismissWorkers.dismissSubscriptions

namespace Engine

variable {e f : Engine}

theorem Departure.deserted (hdeparture : e.Departure f) (h : e.Deserted) :
    f.Deserted ∧ f.registry = e.registry ∧ f.queue.pending = e.queue.pending := by
  cases hdeparture with
  | parts p q f hparting =>
    obtain ⟨hdeserted, hregistry, hpending, -⟩ := h.after_parting hparting
    exact ⟨hdeserted, hregistry, hpending⟩
  | stop => exact ⟨h.requestStop, rfl, rfl⟩
  | dismiss => exact ⟨h.dismiss, rfl, rfl⟩

theorem Departure.stopped (hdeparture : e.Departure f) (h : e.Stopped) : f.Stopped := by
  cases hdeparture with
  | parts p q f hparting => exact h.after_parting hparting
  | stop => exact h.requestStop
  | dismiss => exact h.dismiss

/-- A deserted engine stays deserted, knows what it knew, and has pending what it had. -/
theorem Deserted.of_departures (h : e.Deserted)
    (hdepartures : Relation.ReflTransGen Departure e f) :
    f.Deserted ∧ f.registry = e.registry ∧ f.queue.pending = e.queue.pending := by
  induction hdepartures with
  | refl => exact ⟨h, rfl, rfl⟩
  | tail _ hstep ih =>
    obtain ⟨hdeserted, hregistry, hpending⟩ := ih
    obtain ⟨hdeserted', hregistry', hpending'⟩ := hstep.deserted hdeserted
    exact ⟨hdeserted', hregistry'.trans hregistry, hpending'.trans hpending⟩

theorem Stopped.of_departures (h : e.Stopped) (hdepartures : Relation.ReflTransGen Departure e f) :
    f.Stopped := by
  induction hdepartures with
  | refl => exact h
  | tail _ hstep ih => exact hstep.stopped ih

end Engine

namespace System

variable {y z : System}

/-- What may happen to a system when its migrator has been shut down: a piece of background work; a
submission; the creation of a destination; anything that others do to the platform; controllers that
come and go; time that passes; or another shutdown. -/
inductive Later (y : System) : System → Prop
  | work (w : Work) (z : System) (h : y.perform w = some z) : Later y z
  | submit (src dst : ResourceRef) (request : Request) : Later y (y.submit src dst request).2
  | create (src dst : ResourceRef) (copyReplicas : Bool) :
      Later y (y.create src dst copyReplicas).2
  | operate (op : Platform.Operation) : Later y (y.onPlatform fun p => op.apply p)
  | control (controllers : List Controller) : Later y { y with controllers }
  | elapse (time : Nat) (h : y.now ≤ time) : Later y { y with now := time }
  | shutdown : Later y y.shutdown

/-- Another shutdown returns at once. -/
theorem shutdown_of_stopped (h : y.migrator.engine.Stopped) :
    y.shutdown = y.told.dismissed := by
  have hdone : y.told.migrator.isStopped = true := h.requestStop.isStopped
  rw [shutdown_eq, if_pos hdone]

/-- Background work of an engine that was told to stop is one departure after the other. -/
theorem departures_exhaust (fuel : Nat) (h : y.migrator.engine.Told) :
    Relation.ReflTransGen Engine.Departure y.migrator.engine
      (exhaust Clockwork.step? fuel y).migrator.engine := by
  induction fuel generalizing y with
  | zero => exact .refl
  | succ fuel ih =>
    unfold exhaust
    cases hstep : Clockwork.step? y with
    | none => exact .refl
    | some z =>
      dsimp only
      rcases of_step? hstep with ⟨a, f, q, hperform, hz⟩ | ⟨-, hsame⟩
      · have hengine : z.migrator.engine = f := congrArg (·.migrator.engine) hz
        have htold : z.migrator.engine.Told :=
          hengine ▸ h.of_keeps (Engine.keeps_perform hperform)
        exact .head (.parts _ _ _ (hengine ▸ h.parting hperform)) (ih htold)
      · have hrest := ih (hsame ▸ h : z.migrator.engine.Told)
        rwa [hsame] at hrest

/-- Whatever happens later, the engine departs at most. -/
theorem Later.departures (hlater : y.Later z) (h : y.migrator.engine.Told) :
    Relation.ReflTransGen Engine.Departure y.migrator.engine z.migrator.engine := by
  cases hlater with
  | work w z hperform =>
    cases w with
    | engine a =>
      obtain ⟨⟨f, q⟩, hactivity, rfl⟩ := Option.map_eq_some_iff.1 hperform
      exact .single (.parts _ _ _ (h.parting hactivity))
    | controller index =>
      obtain ⟨c, d, q, -, -, rfl⟩ := exists_of_perform_controller hperform
      exact .refl
  | submit src dst request =>
    have hshut : y.migrator.isShuttingDown = true := h.shuttingDown
    unfold System.submit Migrator.submit
    rw [if_pos hshut]
  | create src dst copyReplicas => exact .refl
  | operate op => exact .refl
  | control controllers => exact .refl
  | elapse time hle => exact .refl
  | shutdown =>
    rw [shutdown_eq]
    split
    · exact (Relation.ReflTransGen.single .stop).tail .dismiss
    · have hrun := departures_exhaust (y := y.told) (Clockwork.bound y.told)
        (Engine.told_requestStop y.migrator.engine)
      exact (hrun.head .stop).tail .dismiss

theorem Later.stopped (hlater : y.Later z) (h : y.migrator.engine.Stopped) :
    z.migrator.engine.Stopped :=
  h.of_departures (hlater.departures h.toTold)

theorem Later.all_stopped (hlater : Relation.ReflTransGen Later y z)
    (h : y.migrator.engine.Stopped) :
    z.migrator.engine.Stopped ∧ z.migrator.engine.registry = y.migrator.engine.registry ∧
      z.migrator.engine.queue.pending = y.migrator.engine.queue.pending := by
  induction hlater with
  | refl => exact ⟨h, rfl, rfl⟩
  | tail _ hstep ih =>
    obtain ⟨hstopped, hregistry, hpending⟩ := ih
    obtain ⟨-, hregistry', hpending'⟩ :=
      hstopped.toDeserted.of_departures (hstep.departures hstopped.toTold)
    exact ⟨hstep.stopped hstopped, hregistry'.trans hregistry, hpending'.trans hpending⟩

/-! ## Calls that were under way -/

/-- What may happen to a system when its migrator has been shut down while calls were under way:
whatever may happen later, and what is left of these calls. A submission that has looked at its
objects claims them for a new migration, or a new migration that was carried out in one shot is
registered. What such a call does to the platform is done as others do it. -/
inductive Aftermath (y : System) : System → Prop
  | later (z : System) (h : y.Later z) : Aftermath y z
  | claim (m : Migration) (hnew : y.migrator.engine.registry.get? m.id = none) :
      Aftermath y (Scene.claim ⟨y, fun _ => []⟩ m)
  | register (m : Migration) (hnew : y.migrator.engine.registry.get? m.id = none)
      (hended : m.isTerminal = true) :
      Aftermath y
        { y with migrator := y.migrator.withRegistry (y.migrator.engine.registry.register m) }

end System

/-- A registry that has learned of new migrations: those that it knew are as they were, and who
owned an object owns it still. -/
structure Registry.Learns (g f : Registry) : Prop where
  get?_eq : ∀ id m, g.get? id = some m → f.get? id = some m
  ownerOf?_eq : ∀ r id, g.ownerOf? r = some id → f.ownerOf? r = some id

namespace Registry

variable {f g h : Registry} {m : Migration}

theorem Learns.refl (g : Registry) : g.Learns g :=
  ⟨fun _ _ h => h, fun _ _ h => h⟩

theorem Learns.trans (hfg : f.Learns g) (hgh : g.Learns h) : f.Learns h where
  get?_eq := fun id m hm => hgh.get?_eq id m (hfg.get?_eq id m hm)
  ownerOf?_eq := fun r id howner => hgh.ownerOf?_eq r id (hfg.ownerOf?_eq r id howner)

/-- A registry learns of a new migration that claims what is free. -/
theorem learns_register (hnew : g.get? m.id = none)
    (hfree : m.isTerminal = false → g.ownerOf? m.src = none ∧ g.ownerOf? m.dst = none) :
    g.Learns (g.register m) := by
  refine ⟨fun id t ht => ?_, fun r id howner => ?_⟩
  · have hne : id ≠ m.id := by
      rintro rfl
      rw [hnew] at ht
      cases ht
    rwa [get?_register, if_neg hne]
  · cases hterminal : m.isTerminal with
    | true => rwa [ownerOf?_register_of_isTerminal hterminal]
    | false =>
      obtain ⟨hsrc, hdst⟩ := hfree hterminal
      have hne {r' : ResourceRef} (hr' : g.ownerOf? r' = none) : r ≠ r' := by
        rintro rfl
        rw [hr'] at howner
        cases howner
      rwa [ownerOf?_register g (Migration.isTerminal_eq_false_iff.1 hterminal), if_neg (hne hdst),
        if_neg (hne hsrc)]

end Registry

/-- From a claim a registry learns of a new migration, if its objects are free. -/
theorem Migrator.learns_claim {σ : Type} {e : Engine} {m : Migration}
    (hnew : e.registry.get? m.id = none) (client : Client σ) (s : σ) :
    e.registry.Learns (claim client m e s).2.1.registry := by
  obtain ⟨-, hmigrations, howners⟩ := watchPair_registry client m.pair e s
  have hwatched {f : Registry} (hmigrations : f.migrations = e.registry.migrations)
      (howners : f.owners = e.registry.owners) :
      (∀ id, f.get? id = e.registry.get? id) ∧ ∀ r, f.ownerOf? r = e.registry.ownerOf? r :=
    ⟨fun id => congrArg (·.get? id) hmigrations, fun r => congrArg (·.get? r) howners⟩
  obtain ⟨hget, howner⟩ := hwatched hmigrations howners
  have hlearns : e.registry.Learns (watchPair client m.pair e s).2.1.registry :=
    ⟨fun id t ht => (hget id).trans ht, fun r id hr => (howner r).trans hr⟩
  unfold claim
  rcases OneShot.ensureBothFree_cases e.registry m.src m.dst with
    ⟨hfree, hsrc, hdst⟩ | ⟨r, htaken, -, -⟩
  · rw [hfree]
    dsimp only
    rcases hresult : watchPair client m.pair e s with ⟨err | done, f, s'⟩
    · rw [hresult] at hlearns
      exact hlearns
    · rw [hresult] at hlearns hget howner
      exact hlearns.trans (Registry.learns_register ((hget m.id).trans hnew) fun _ =>
        ⟨(howner m.src).trans hsrc, (howner m.dst).trans hdst⟩)
  · rw [htaken]
    exact .refl _

namespace System

variable {y z : System}

/-- In the aftermath of a shutdown a deserted engine stays deserted. It may learn of new migrations,
but makes nothing pending. -/
theorem Aftermath.deserted (haftermath : y.Aftermath z) (h : y.migrator.engine.Deserted) :
    z.migrator.engine.Deserted ∧
      y.migrator.engine.registry.Learns z.migrator.engine.registry ∧
      z.migrator.engine.queue.pending = y.migrator.engine.queue.pending := by
  cases haftermath with
  | later z hlater =>
    obtain ⟨hdeserted, hregistry, hpending⟩ := h.of_departures (hlater.departures h.toTold)
    exact ⟨hdeserted, hregistry ▸ .refl _, hpending⟩
  | claim m hnew =>
    obtain ⟨hdeserted, hqueue⟩ := h.claim Platform.client m y.platform
    exact ⟨hdeserted, Migrator.learns_claim hnew Platform.client y.platform,
      congrArg (·.pending) hqueue⟩
  | register m hnew hended =>
    refine ⟨⟨⟨h.stopped, h.shuttingDown⟩, h.gone⟩,
      Registry.learns_register hnew fun hexecuting => ?_, rfl⟩
    rw [hended] at hexecuting
    cases hexecuting

theorem Aftermath.all_deserted (haftermath : Relation.ReflTransGen Aftermath y z)
    (h : y.migrator.engine.Deserted) :
    z.migrator.engine.Deserted ∧
      y.migrator.engine.registry.Learns z.migrator.engine.registry ∧
      z.migrator.engine.queue.pending = y.migrator.engine.queue.pending := by
  induction haftermath with
  | refl => exact ⟨h, .refl _, rfl⟩
  | tail _ hstep ih =>
    obtain ⟨hdeserted, hlearns, hpending⟩ := ih
    obtain ⟨hdeserted', hlearns', hpending'⟩ := hstep.deserted hdeserted
    exact ⟨hdeserted', hlearns.trans hlearns', hpending'.trans hpending⟩

end System

namespace Scene

variable {s : Scene}

/-- A worker that goes on may have seen the platform as it was before a change. -/
theorem Vigilant.mem_seen_onPlatform (h : s.Vigilant) (f : Platform → Platform) (n : Nat) :
    s.system.platform ∈ (s.next (s.system.onPlatform f)).seen n := by
  have hsame : (s.system.onPlatform f).migrator.engine = s.engine := rfl
  unfold next
  dsimp only
  rw [hsame, if_pos rfl]
  exact List.mem_cons_of_mem _ (Engine.Vigilant.current h n)

end Scene

end Handover
