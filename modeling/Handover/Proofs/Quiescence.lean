import Handover.Proofs.Controller
import Handover.Proofs.Engine.Submission
import Handover.System

/-!
# No work is forgotten

A `Scene` is a system together with what its workers may have read. Its steps are the background
work in any order, passes that finish with reads of different moments, and whatever happens to a
system from outside: submissions, operations on the platform, controllers, and time. In every scene
that steps lead to from a start the engine is vigilant (`Scene.Reach.vigilant`). So when no
background work can be done and no timer is pending, all executing migrations that are in time have
nothing to do (`Scene.nothing_forgotten`).
-/

namespace Handover

/-! ## Still engines -/

namespace Engine

open Worker (stateOf?)

variable {e : Engine} {p : Platform} {seen : Nat → List Platform} {id : MigrationId}
  {m : Migration} {now : Nat}

/-- The engine can do nothing now. -/
def Still (e : Engine) (now : Nat) (p : Platform) : Prop :=
  ∀ a ∈ e.activities, e.perform Platform.client now a p = none

/-- No worker of a still engine holds a migration, for it could finish a pass. -/
theorem Still.not_holding (h : e.Still now p) (n : Nat) (id : MigrationId) :
    stateOf? e.workers n ≠ some (.holding id) := by
  intro hholds
  obtain ⟨w, hw, hstate⟩ := Option.map_eq_some_iff.1 hholds
  have hmem : n ∈ e.holders := by
    unfold holders
    rw [List.mem_filterMap]
    refine ⟨(w, n), List.mem_zipIdx_iff_getElem?.2 hw, ?_⟩
    simp only [hstate]
  have hactivity : Activity.process n ∈ e.activities := by
    unfold activities
    simp [hmem]
  have hperform := h _ hactivity
  obtain ⟨state, isHeld⟩ := w
  obtain rfl : state = .holding id := hstate
  unfold Engine.perform at hperform
  simp [hw] at hperform

/-- No worker of a still engine is awake. -/
theorem Still.ready_eq_nil (h : e.Still now p) : e.queue.wakeups.ready = [] := by
  rw [List.eq_nil_iff_forall_not_mem]
  intro n hn
  have hactivity : Activity.wake n ∈ e.activities := by
    unfold activities
    simp [hn]
  have hperform := h _ hactivity
  unfold Engine.perform at hperform
  simp [hn] at hperform

/-- A still engine has read all news. -/
theorem Vigilant.not_unread_of_still (h : e.Vigilant p seen) (hstill : e.Still now p)
    {b : Subscription} (hb : b ∈ e.subscriptions) (r : ResourceRef) : ¬ b.Unread r p := by
  intro hunread
  obtain ⟨i, hi⟩ := List.getElem?_of_mem hb
  have hactivity : Activity.deliver i ∈ e.activities := by
    have hlt : i < e.subscriptions.length := (List.getElem?_eq_some_iff.1 hi).1
    unfold activities
    simp [hlt]
  have hperform := hstill _ hactivity
  unfold Engine.perform Engine.deliver at hperform
  rw [Option.map_eq_none_iff, hi, h.running] at hperform
  cases hstep : b.step? Platform.client false e.registry e.queue p with
  | none => exact Subscription.step?_ne_none_of_unread hunread _ _ hstep
  | some result =>
    have hperform : (b.step? Platform.client false e.registry e.queue p).bind _ = none := hperform
    rw [hstep] at hperform
    cases hperform

/-- Nothing is pending in a still engine: all its workers sleep, and they would not if there were
anything to do. -/
theorem Vigilant.pending_eq_nil_of_still (h : e.Vigilant p seen) (hstill : e.Still now p) :
    e.queue.pending = [] := by
  have hready := hstill.ready_eq_nil
  -- there is a first worker, and it neither holds a migration nor is gone
  obtain ⟨w, rest, hworkers⟩ := List.exists_cons_of_ne_nil h.staffed.nonempty
  have hstate : stateOf? e.workers 0 = some w.state := by
    unfold stateOf?
    rw [hworkers]
    rfl
  have hidle : stateOf? e.workers 0 = some .idle := by
    cases hw : w.state with
    | idle => rw [hstate, hw]
    | holding id => exact absurd (hw ▸ hstate) (hstill.not_holding 0 id)
    | gone => exact absurd (hw ▸ hstate) (h.staffed.present 0)
  have hsleeping : e.queue.wakeups.sleeping ≠ [] := by
    have hwaiting := (h.staffed.mem_waiting_iff 0).2 hidle
    unfold WorkQueue.waiting at hwaiting
    rw [hready, List.nil_append] at hwaiting
    exact List.ne_nil_of_mem hwaiting
  -- so nobody is awake for what is pending
  have hle := h.orderly.attended hsleeping
  rw [hready] at hle
  exact List.length_eq_zero_iff.1 (Nat.le_zero.1 hle)

/-- In a still engine without delayed items no item will come up. -/
theorem Vigilant.not_awaits_of_still (h : e.Vigilant p seen) (hstill : e.Still now p)
    (hdelayed : e.queue.delayed = []) (id : MigrationId) : ¬ e.queue.Awaits id := by
  have hdirty : id ∉ e.queue.dirty := fun hid => by
    rcases h.orderly.pending_or_processing id hid with hpending | hprocessing
    · rw [h.pending_eq_nil_of_still hstill] at hpending
      cases hpending
    · obtain ⟨n, hn⟩ := (h.staffed.mem_processing_iff id).1 hprocessing
      exact hstill.not_holding n id hn
  rintro (hid | ⟨d, hd, -⟩)
  · exact hdirty hid
  · rw [hdelayed] at hd
    cases hd

/-- When a vigilant engine is still and nothing is delayed, its executing migrations are idle. -/
theorem Vigilant.idle_of_still (h : e.Vigilant p seen) (hstill : e.Still now p)
    (hdelayed : e.queue.delayed = []) (hm : e.registry.get? id = some m)
    (hexecuting : m.ending = none) : m.Idle p := by
  have hawaits := h.not_awaits_of_still hstill hdelayed id
  -- of all ways not to be forgotten, being idle is the only one that leaves nothing to do
  rcases h.covered id m hm hexecuting with hid | ⟨n, hn⟩ | ⟨side, hside⟩ | hidle
  · exact absurd hid hawaits
  · exact absurd hn (hstill.not_holding n id)
  · rcases hside with hdirty | ⟨b, hb, hunread⟩
    · exact absurd (.inl hdirty) hawaits
    · exact absurd hunread (h.not_unread_of_still hstill hb _)
  · exact hidle

end Engine

/-! ## Scenes -/

/-- A system, and the states that its platform has been in since each worker has changed what it is
at. -/
structure Scene where
  system : System
  seen : Nat → List Platform

namespace Scene

open Worker (stateOf?)

/-- A system that starts. -/
def start (settings : Settings) (capacity : Nat) (firstId : MigrationId) : Scene :=
  ⟨.start settings capacity firstId, fun _ => [.empty capacity]⟩

/-- The engine of a scene. -/
def engine (s : Scene) : Engine :=
  s.system.migrator.engine

/-- The scene when the system has become another one. -/
def next (s : Scene) (y : System) : Scene :=
  ⟨y, fun n =>
    if stateOf? y.migrator.engine.workers n = stateOf? s.engine.workers n then
      y.platform :: s.seen n
    else [y.platform]⟩

/-- The system after a worker has finished a pass with given reads. -/
def finishPass (s : Scene) (n : Nat) (id : MigrationId)
    (read : ResourceRef → Except PlatformError Workload) : System :=
  let result :=
    s.engine.processHeld (Platform.clientReading read) s.system.now n id s.system.platform
  { s.system with
    migrator := { s.system.migrator with engine := result.1 }
    platform := result.2 }

/-- The system after a submission that looked at the objects some time ago has claimed them for a
migration. -/
def claim (s : Scene) (m : Migration) : System :=
  let (_, engine, platform) := Migrator.claim Platform.client m s.engine s.system.platform
  { s.system with migrator := { s.system.migrator with engine }, platform }

/-- A step of a scene: a piece of background work; a pass that a worker finishes although what it
has read may have changed since it took the migration; a submission, at once or in two parts; the
creation of a destination; anything that others do to the platform; controllers that come and go; or
time that passes. -/
inductive Step (s : Scene) : Scene → Prop
  | work (w : Work) (y : System) (h : s.system.perform w = some y) : Step s (s.next y)
  | late (n : Nat) (id : MigrationId) (read : ResourceRef → Except PlatformError Workload)
      (hholds : stateOf? s.engine.workers n = some (.holding id))
      (hread : ∀ r, ∃ q ∈ s.seen n, read r = q.get r) : Step s (s.next (s.finishPass n id read))
  | submit (src dst : ResourceRef) (request : Request) :
      Step s (s.next (s.system.submit src dst request).2)
  | claim (m : Migration) (hexecuting : m.ending = none)
      (hpair : Pair.ofRefs? m.src m.dst = some m.pair) : Step s (s.next (s.claim m))
  | create (src dst : ResourceRef) (copyReplicas : Bool) :
      Step s (s.next (s.system.create src dst copyReplicas).2)
  | operate (op : Platform.Operation) : Step s (s.next (s.system.onPlatform fun p => op.apply p))
  | control (controllers : List Controller) : Step s (s.next { s.system with controllers })
  | elapse (time : Nat) (h : s.system.now ≤ time) : Step s (s.next { s.system with now := time })

/-- A scene that steps lead to. -/
def Reach : Scene → Scene → Prop :=
  Relation.ReflTransGen Step

/-- A step that a system takes on its own: a piece of background work, a pass that a worker finishes
although what it has read may have changed since, or time that passes. -/
inductive Background (s : Scene) : Scene → Prop
  | work (w : Work) (y : System) (h : s.system.perform w = some y) : Background s (s.next y)
  | late (n : Nat) (id : MigrationId) (read : ResourceRef → Except PlatformError Workload)
      (hholds : stateOf? s.engine.workers n = some (.holding id))
      (hread : ∀ r, ∃ q ∈ s.seen n, read r = q.get r) :
      Background s (s.next (s.finishPass n id read))
  | elapse (time : Nat) (h : s.system.now ≤ time) :
      Background s (s.next { s.system with now := time })

/-- A scene that a system comes to on its own, in any order. -/
def Lapse : Scene → Scene → Prop :=
  Relation.ReflTransGen Background

/-- The engine of a scene is vigilant on its platform. -/
def Vigilant (s : Scene) : Prop :=
  s.engine.Vigilant s.system.platform s.seen

variable {s t : Scene} {y : System}

/-- A scene is vigilant if its engine is, whatever its workers have seen before. -/
theorem vigilant_next
    (h : y.migrator.engine.Vigilant y.platform fun n => y.platform :: s.seen n) :
    (s.next y).Vigilant := by
  refine h.restrict (fun n => ?_) fun n q hq => ?_
  · unfold next
    dsimp only
    split
    · exact List.mem_cons_self
    · exact List.mem_singleton_self _
  · unfold next at hq
    dsimp only at hq
    split at hq
    · exact hq
    · rw [List.mem_singleton.1 hq]
      exact List.mem_cons_self

/-- Changes of the platform keep a scene vigilant. -/
theorem Vigilant.next_of_evolves (h : s.Vigilant) (hengine : y.migrator.engine = s.engine)
    (hevolves : s.system.platform.Evolves y.platform) : (s.next y).Vigilant := by
  apply vigilant_next
  rw [hengine]
  exact Engine.Vigilant.after_evolves h hevolves

/-- A pass that finishes keeps a scene vigilant. -/
theorem Vigilant.next_finishPass (h : s.Vigilant) {n : Nat} {id : MigrationId}
    (hholds : stateOf? s.engine.workers n = some (.holding id))
    {read : ResourceRef → Except PlatformError Workload}
    (hread : ∀ r, ∃ q ∈ s.seen n, read r = q.get r) : (s.next (s.finishPass n id read)).Vigilant :=
  vigilant_next (Engine.Vigilant.processHeld h hholds hread s.system.now)

/-- A worker that runs at the queue keeps a scene vigilant. -/
theorem Vigilant.next_wake (h : s.Vigilant) {n : Nat} (hn : n ∈ s.engine.queue.wakeups.ready)
    (hengine : y.migrator.engine = s.engine.afterWake n)
    (hplatform : y.platform = s.system.platform) : (s.next y).Vigilant := by
  rcases Engine.Vigilant.wake h hn with hvigilant | ⟨hvigilant, hstate⟩
  · apply vigilant_next
    rw [hengine, hplatform]
    exact hvigilant.after_evolves (.refl _)
  · -- the worker has got a migration, and what it has seen before no longer counts
    have hvigilant' : y.migrator.engine.Vigilant y.platform fun k =>
        y.platform :: if k = n then [y.platform] else s.seen k := by
      rw [hengine, hplatform]
      exact hvigilant.after_evolves (.refl _)
    refine hvigilant'.restrict (fun k => ?_) fun k q hq => ?_
    · unfold next
      dsimp only
      split
      · exact List.mem_cons_self
      · exact List.mem_singleton_self _
    · unfold next at hq
      dsimp only at hq
      rw [hengine] at hq
      split at hq
      · next hsame =>
        rw [if_neg]
        · exact hq
        · rintro rfl
          exact hstate hsame
      · rw [List.mem_singleton.1 hq]
        exact List.mem_cons_self

/-- A pass with the platform's client is one with its current answers. -/
theorem processHeld_client (now n : Nat) (id : MigrationId) (e : Engine) (p : Platform) :
    e.processHeld Platform.client now n id p =
      e.processHeld (Platform.clientReading p.get) now n id p := by
  rw [Engine.processHeld_eq, Engine.processHeld_eq]
  cases e.registry.get? id with
  | none => rfl
  | some m =>
    dsimp only
    rw [Migration.pass_client]

/-- An activity of the engine keeps a scene vigilant. -/
theorem Vigilant.next_activity (h : s.Vigilant) {a : Activity} {f : Engine} {q : Platform}
    (hperform : s.engine.perform Platform.client s.system.now a s.system.platform = some (f, q)) :
    (s.next { s.system with
      migrator := { s.system.migrator with engine := f }, platform := q }).Vigilant := by
  cases a with
  | deliver index =>
    obtain ⟨f', hdeliver, heq⟩ := Option.map_eq_some_iff.1 hperform
    cases heq
    exact vigilant_next ((Engine.Vigilant.deliver h hdeliver).after_evolves (.refl _))
  | process n =>
    obtain ⟨id, hholds, hresult⟩ := Engine.of_perform_process hperform
    rw [processHeld_client] at hresult
    -- the worker reads the platform as it is, which it may always have seen
    have hread : ∀ r, ∃ q ∈ s.seen n, s.system.platform.get r = q.get r :=
      fun _ => ⟨_, Engine.Vigilant.current h n, rfl⟩
    have hnext := h.next_finishPass hholds hread
    unfold finishPass at hnext
    rwa [hresult] at hnext
  | wake n =>
    obtain ⟨hn, hresult⟩ := Engine.of_perform_wake hperform
    cases hresult
    exact h.next_wake hn rfl rfl
  | expire =>
    obtain ⟨queue, hexpire, heq⟩ := Option.map_eq_some_iff.1 hperform
    cases heq
    have hgrows := WorkQueue.grows_expire? (Engine.Vigilant.orderly h) hexpire
    exact vigilant_next ((Engine.Vigilant.grow h hgrows).after_evolves (.refl _))

/-- Background work keeps a scene vigilant. -/
theorem Vigilant.next_perform (h : s.Vigilant) {w : Work} (hperform : s.system.perform w = some y) :
    (s.next y).Vigilant := by
  cases w with
  | engine a =>
    obtain ⟨⟨f, q⟩, hactivity, rfl⟩ := Option.map_eq_some_iff.1 hperform
    exact h.next_activity hactivity
  | controller index =>
    obtain ⟨c, -, hrest⟩ := Option.bind_eq_some_iff.1 hperform
    obtain ⟨⟨d, q⟩, hstep, heq⟩ := Option.bind_eq_some_iff.1 hrest
    cases heq
    exact h.next_of_evolves rfl (Controller.evolves_step? hstep)

/-- Every step keeps a scene vigilant. -/
theorem Vigilant.step (h : s.Vigilant) (hstep : Step s t) : t.Vigilant := by
  cases hstep with
  | work w y hperform => exact h.next_perform hperform
  | late n id read hholds hread => exact h.next_finishPass hholds hread
  | submit src dst request =>
    exact vigilant_next (Engine.Vigilant.submit h s.system.now s.system.nextId src dst request)
  | claim m hexecuting hpair =>
    have hclaim := Engine.Vigilant.claim h hexecuting hpair
    unfold claim
    rcases hresult : Migrator.claim Platform.client m s.engine s.system.platform with
      ⟨answer, f, q⟩
    rw [hresult] at hclaim
    obtain ⟨hvigilant, rfl⟩ := hclaim
    exact vigilant_next (hvigilant.after_evolves (.refl _))
  | create src dst copyReplicas =>
    refine h.next_of_evolves rfl ?_
    show s.system.platform.Evolves
      (s.system.migrator.create Platform.client src dst copyReplicas s.system.platform).2
    unfold Migrator.create
    split
    · exact .refl _
    · exact OneShot.evolves_createDestination src dst copyReplicas _
  | operate op => exact h.next_of_evolves rfl (op.evolves s.system.platform)
  | control controllers => exact h.next_of_evolves rfl (.refl _)
  | elapse time hle => exact h.next_of_evolves rfl (.refl _)

/-- A scene starts vigilant. -/
theorem vigilant_start (settings : Settings) (capacity : Nat) (firstId : MigrationId) :
    (start settings capacity firstId).Vigilant where
  sound := Platform.sound_empty capacity
  running := rfl
  orderly := orderly_enterWorkers 0 _ (WorkQueue.orderly_empty _ _)
  staffed := staffed_replicate _ _ (by omega)
  coherent := Registry.coherent_empty
  followed := fun kind hkind => nomatch hkind
  past := fun n q hq => by
    rw [List.mem_singleton.1 hq]
    exact ⟨Platform.sound_empty capacity, .refl _⟩
  current := fun _ => List.mem_singleton_self _
  held := fun n id m _ hm => nomatch hm
  covered := fun id m hm => nomatch hm

/-- What a system does on its own is a step. -/
theorem Background.step (h : Background s t) : Step s t := by
  cases h with
  | work w y hperform => exact .work w y hperform
  | late n id read hholds hread => exact .late n id read hholds hread
  | elapse time hle => exact .elapse time hle

theorem Lapse.reach (h : Lapse s t) : Reach s t := by
  induction h with
  | refl => exact .refl
  | tail _ hstep ih => exact ih.tail hstep.step

/-- Every scene that steps lead to from a start is vigilant. -/
theorem Reach.vigilant {settings : Settings} {capacity : Nat} {firstId : MigrationId}
    (h : Reach (start settings capacity firstId) s) : s.Vigilant := by
  induction h with
  | refl => exact vigilant_start settings capacity firstId
  | tail _ hstep ih => exact ih.step hstep

/-! ## Quiet scenes -/

/-- The engine of a quiet system is still. -/
theorem still_of_quiet (h : Clockwork.Quiet s.system) :
    s.engine.Still s.system.now s.system.platform := by
  intro a ha
  have hwork : Work.engine a ∈ s.system.works := by
    unfold System.works
    exact List.mem_append_left _ (List.mem_map_of_mem ha)
  have hperform : s.system.perform (.engine a) = none := List.findSome?_eq_none_iff.1 h _ hwork
  exact Option.map_eq_none_iff.1 hperform

/-- Without a pending timer nothing is delayed. -/
theorem delayed_eq_nil_of_nextDue?_eq_none (h : Clockwork.nextDue? s.system = none) :
    s.engine.queue.delayed = [] := by
  have hqueue : s.engine.queue.nextDue? = none := by
    have hearlier : System.earlier s.engine.queue.nextDue?
      (System.controllersDue? s.system.controllers) = none := h
    unfold System.earlier at hearlier
    split at hearlier
    · cases hearlier
    · cases hearlier
    · assumption
  unfold WorkQueue.nextDue? at hqueue
  rwa [List.min?_eq_none_iff, List.map_eq_nil_iff] at hqueue

/-- Nothing is forgotten. Whatever steps have led to a scene, if no background work can be done and
no timer is pending, then another pass over a migration that executes and is in time does not try to
write and changes neither the engine nor the platform. -/
theorem nothing_forgotten {settings : Settings} {capacity : Nat} {firstId : MigrationId}
    (hreach : Reach (start settings capacity firstId) s) (hquiet : Clockwork.Quiet s.system)
    (htimers : Clockwork.nextDue? s.system = none) {id : MigrationId} {m : Migration}
    (hm : s.engine.registry.get? id = some m) (hexecuting : m.ending = none) {now : Nat}
    (htime : m.timedOut now = false) :
    (∀ update, m.pass { Platform.client with update } s.engine.retryLimit now s.system.platform =
      (.unchanged, s.system.platform)) ∧
      s.engine.reconcile Platform.client now id s.system.platform =
        (.ok (), s.engine, s.system.platform) := by
  have hidle : m.Idle s.system.platform :=
    Engine.Vigilant.idle_of_still hreach.vigilant (still_of_quiet hquiet)
      (delayed_eq_nil_of_nextDue?_eq_none htimers) hm hexecuting
  have hpass := Migration.pass_of_idle hidle hexecuting htime
  refine ⟨fun update => hpass update s.engine.retryLimit, ?_⟩
  have hclient : m.pass Platform.client s.engine.retryLimit now s.system.platform =
      (.unchanged, s.system.platform) := hpass Platform.client.update s.engine.retryLimit
  unfold Engine.reconcile Registry.reconcile
  rw [hm]
  dsimp only
  rw [hclient]
  dsimp only
  rw [Registry.record_unchanged]
  rfl

/-- The scene after at most `fuel` pieces of background work, in the system's own order. -/
def work : Nat → Scene → Scene
  | 0, s => s
  | fuel + 1, s =>
    match Clockwork.step? s.system with
    | none => s
    | some y => work fuel (s.next y)

theorem lapse_work (fuel : Nat) (s : Scene) : Lapse s (s.work fuel) := by
  induction fuel generalizing s with
  | zero => exact .refl
  | succ fuel ih =>
    unfold work
    split
    · exact .refl
    · next y hstep =>
      obtain ⟨w, -, hperform⟩ := List.exists_of_findSome?_eq_some hstep
      exact .head (.work w y hperform) (ih (s.next y))

theorem reach_work (fuel : Nat) (s : Scene) : Reach s (s.work fuel) :=
  (lapse_work fuel s).reach

theorem system_work (fuel : Nat) (s : Scene) :
    (s.work fuel).system = exhaust Clockwork.step? fuel s.system := by
  induction fuel generalizing s with
  | zero => rfl
  | succ fuel ih =>
    unfold work exhaust
    cases Clockwork.step? s.system with
    | none => rfl
    | some y => exact ih (s.next y)

/-- A worker has given two replicas to the destination, whose controller does not report them: the
migration waits, and so does all the rest. -/
theorem nothing_forgotten_unreported :
    let web : ResourceRef := .of .deployment "default" "web"
    let webCs : ResourceRef := .of .cloneSet "default" "web-cs"
    let a := start { Settings.default with workers := 1 } 4 ⟨7⟩
    let put (s : Scene) (w : Workload) := s.next (s.system.onPlatform fun p => (p.put w).2)
    let b := put a ((Workload.named .deployment "default" "web").withReplicas (some 3))
    let c := put b (Workload.named .cloneSet "default" "web-cs")
    let d := c.next (c.system.onPlatform fun p => p.settleAll.2)
    let s := (d.next (d.system.submit web webCs ⟨none, some 2, none, false⟩).2).work 50
    Clockwork.Quiet s.system ∧ Clockwork.nextDue? s.system = none ∧
      ∃ m, s.engine.registry.get? ⟨7⟩ = some m ∧ m.counters = ⟨0, 2⟩ ∧
        (∀ update, m.pass { Platform.client with update } s.engine.retryLimit 1000
          s.system.platform = (.unchanged, s.system.platform)) ∧
        s.engine.reconcile Platform.client 1000 ⟨7⟩ s.system.platform =
          (.ok (), s.engine, s.system.platform) := by
  intro web webCs a put b c d s
  have hd : Reach a d :=
    ((Relation.ReflTransGen.single (.operate (.put _))).tail (.operate (.put _))).tail
      (.operate .settleAll)
  have hs : Reach a s := (hd.tail (.submit web webCs ⟨none, some 2, none, false⟩)).trans
    (reach_work 50 _)
  have hstep : (Clockwork.step? s.system).isNone = true := by decide +kernel
  have hquiet : Clockwork.Quiet s.system := Option.isNone_iff_eq_none.1 hstep
  have htimers : Clockwork.nextDue? s.system = none := by decide +kernel
  have hget : (s.engine.registry.get? ⟨7⟩).map
      (fun m => (m.counters, m.ending, m.timedOut 1000)) = some (⟨0, 2⟩, none, false) := by
    decide +kernel
  obtain ⟨m, hm, hfields⟩ := Option.map_eq_some_iff.1 hget
  obtain ⟨hcounters, hexecuting, htime⟩ : m.counters = ⟨0, 2⟩ ∧ m.ending = none ∧
      m.timedOut 1000 = false := by simpa using hfields
  have hnothing := nothing_forgotten hs hquiet htimers hm hexecuting htime
  exact ⟨hquiet, htimers, m, hm, hcounters, hnothing⟩

end Scene

end Handover
