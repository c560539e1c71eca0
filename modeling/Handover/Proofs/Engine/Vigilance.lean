import Handover.Proofs.Engine.Staff
import Handover.Proofs.Pass.Idle
import Handover.Proofs.Subscription

/-!
# Vigilant engines

An engine is `Vigilant` if it forgets no executing migration: each one will come up again, is held
by a worker, has news that a subscription is still to read, or is idle. What carries this through a
pass is what its worker may have seen: the states that the platform has been in since the worker
took the migration. Whatever it has read there is as it is now, or the migration will be made
pending by the news of the change. One lemma for each thing that an engine does says that it stays
vigilant.
-/

namespace Handover.Engine

open Worker (stateOf?)

/-- The migration will be looked at again on account of an object: it is dirty, or a subscription is
still to read news of the object. -/
def Alerted (e : Engine) (p : Platform) (id : MigrationId) (r : ResourceRef) : Prop :=
  id ∈ e.queue.dirty ∨ ∃ b ∈ e.subscriptions, b.Unread r p

/-- The migration is not forgotten. -/
def Covered (e : Engine) (p : Platform) (id : MigrationId) (m : Migration) : Prop :=
  e.queue.Awaits id ∨ (∃ n, stateOf? e.workers n = some (.holding id)) ∨
    (∃ side, e.Alerted p id (m.refOf side)) ∨ m.Idle p

/-- What an engine at work preserves; `seen` holds the states of the platform that each worker may
have read. -/
structure Vigilant (e : Engine) (p : Platform) (seen : Nat → List Platform) : Prop where
  sound : p.Sound
  running : e.stop.stopped = false
  orderly : e.queue.Orderly
  staffed : Staffed e.workers e.queue
  coherent : e.registry.Coherent
  followed : ∀ kind, e.registry.isWatched kind = true → ∃ b ∈ e.subscriptions, b.Follows kind p
  past : ∀ n, ∀ q ∈ seen n, q.Sound ∧ q.Evolves p
  current : ∀ n, p ∈ seen n
  held : ∀ n id m, stateOf? e.workers n = some (.holding id) → e.registry.get? id = some m →
    m.ending = none → ∀ q ∈ seen n, ∀ side,
      q.object? (m.refOf side) = p.object? (m.refOf side) ∨ e.Alerted p id (m.refOf side)
  covered : ∀ id m, e.registry.get? id = some m → m.ending = none → e.Covered p id m

variable {e f : Engine} {p q : Platform} {seen : Nat → List Platform} {id : MigrationId}
  {m : Migration} {r : ResourceRef} {n : Nat}

/-- Who is covered stays covered if what is to come up is still to come up, who holds a migration
holds it still, and no alert is lost. -/
theorem Covered.imp (h : e.Covered p id m) (hawaits : e.queue.Awaits id → f.queue.Awaits id)
    (hholds : ∀ n, stateOf? e.workers n = some (.holding id) →
      stateOf? f.workers n = some (.holding id))
    (halerted : ∀ side, e.Alerted p id (m.refOf side) → f.Alerted p id (m.refOf side)) :
    f.Covered p id m := by
  rcases h with h | ⟨n, hn⟩ | ⟨side, hside⟩ | hidle
  · exact .inl (hawaits h)
  · exact .inr (.inl ⟨n, hholds n hn⟩)
  · exact .inr (.inr (.inl ⟨side, halerted side hside⟩))
  · exact .inr (.inr (.inr hidle))

/-- A worker may have seen less. -/
theorem Vigilant.restrict (h : e.Vigilant p seen) {less : Nat → List Platform}
    (hcurrent : ∀ n, p ∈ less n) (hsubset : ∀ n, ∀ q ∈ less n, q ∈ seen n) : e.Vigilant p less :=
  { h with
    past := fun n q hq => h.past n q (hsubset n q hq)
    current := hcurrent
    held := fun n id m hholds hm hexecuting q hq =>
      h.held n id m hholds hm hexecuting q (hsubset n q hq) }

/-! ## While the platform evolves -/

theorem Alerted.after_evolves (h : e.Alerted p id r) (hevolves : p.Evolves q) :
    e.Alerted q id r :=
  h.imp_right fun ⟨b, hb, hunread⟩ => ⟨b, hb, hunread.after_evolves hevolves⟩

/-- An object of an executing migration that changes is news. -/
theorem Vigilant.object?_eq_or_alerted (h : e.Vigilant p seen) (hm : e.registry.get? id = some m)
    (hexecuting : m.ending = none) (hevolves : p.Evolves q) (side : Side) :
    q.object? (m.refOf side) = p.object? (m.refOf side) ∨ e.Alerted q id (m.refOf side) := by
  obtain ⟨kind, hkind, hwatched⟩ := h.coherent.watches id m hm hexecuting side
  obtain ⟨b, hb, hfollows⟩ := h.followed kind hwatched
  exact (hfollows.object?_eq_or_unread h.sound hevolves hkind).imp_right
    fun hunread => .inr ⟨b, hb, hunread⟩

/-- An engine stays vigilant whatever becomes of the platform. -/
theorem Vigilant.after_evolves (h : e.Vigilant p seen) (hevolves : p.Evolves q) :
    e.Vigilant q fun n => q :: seen n where
  sound := hevolves.sound h.sound
  running := h.running
  orderly := h.orderly
  staffed := h.staffed
  coherent := h.coherent
  followed := fun kind hwatched => by
    obtain ⟨b, hb, hfollows⟩ := h.followed kind hwatched
    exact ⟨b, hb, hfollows.after_evolves hevolves⟩
  past := fun n s hs => by
    rcases List.mem_cons.1 hs with rfl | hs
    · exact ⟨hevolves.sound h.sound, .refl _⟩
    · exact ⟨(h.past n s hs).1, (h.past n s hs).2.trans hevolves⟩
  current := fun _ => List.mem_cons_self
  held := fun n id m hholds hm hexecuting s hs side => by
    rcases List.mem_cons.1 hs with rfl | hs
    · exact .inl rfl
    · rcases h.held n id m hholds hm hexecuting s hs side with heq | halerted
      · rcases h.object?_eq_or_alerted hm hexecuting hevolves side with hstay | halerted
        · exact .inl (heq.trans hstay.symm)
        · exact .inr halerted
      · exact .inr (halerted.after_evolves hevolves)
  covered := fun id m hm hexecuting => by
    rcases h.covered id m hm hexecuting with
      hawaits | hholds | ⟨side, halerted⟩ | hidle
    · exact .inl hawaits
    · exact .inr (.inl hholds)
    · exact .inr (.inr (.inl ⟨side, halerted.after_evolves hevolves⟩))
    · -- a pass would find something else only if an object has changed, and that is news
      by_cases hstay : ∀ side, q.object? (m.refOf side) = p.object? (m.refOf side)
      · exact .inr (.inr (.inr (hidle.of_object?_eq hstay)))
      · obtain ⟨side, hchanged⟩ := not_forall.1 hstay
        have halerted := h.object?_eq_or_alerted hm hexecuting hevolves side
        exact .inr (.inr (.inl ⟨side, halerted.resolve_left hchanged⟩))

/-! ## Additions to the queue -/

/-- When the queue grows the engine stays vigilant. -/
theorem Vigilant.grow (h : e.Vigilant p seen) {queue : WorkQueue MigrationId}
    (hgrows : e.queue.Grows queue) : { e with queue }.Vigilant p seen := by
  have halerted : ∀ id r, e.Alerted p id r → { e with queue }.Alerted p id r :=
    fun id r halerted => halerted.imp_left (hgrows.dirty_subset id)
  exact
    { h with
      orderly := hgrows.orderly
      staffed := h.staffed.of_grows hgrows
      held := fun n id m hholds hm hexecuting q hq side =>
        (h.held n id m hholds hm hexecuting q hq side).imp_right (halerted id _)
      covered := fun id m hm hexecuting =>
        (h.covered id m hm hexecuting).imp (hgrows.awaits id) (fun _ hn => hn)
          fun side => halerted id (m.refOf side) }

/-! ## Deliveries -/

theorem mem_set_or {α : Type} {l : List α} {a b : α} (ha : a ∈ l) (i : Nat) :
    a ∈ l.set i b ∨ l[i]? = some a := by
  obtain ⟨j, hj⟩ := List.getElem?_of_mem ha
  by_cases hij : i = j
  · exact .inr (hij ▸ hj)
  · have hset : (l.set i b)[j]? = some a := (List.getElem?_set_ne hij).trans hj
    exact .inl (List.mem_of_getElem? hset)

/-- A delivery is a step of a subscription. -/
theorem of_deliver {σ : Type} {client : Client σ} {s : σ} {index : Nat}
    (h : e.deliver client index s = some f) :
    ∃ b c queue, e.subscriptions[index]? = some b ∧
      b.step? client e.stop.stopped e.registry e.queue s = some (c, queue) ∧
      f = { e with subscriptions := e.subscriptions.set index c, queue } := by
  unfold Engine.deliver at h
  cases hb : e.subscriptions[index]? with
  | none =>
    rw [hb] at h
    cases h
  | some b =>
    rw [hb] at h
    have h : (b.step? client e.stop.stopped e.registry e.queue s).bind _ = some f := h
    obtain ⟨⟨c, queue⟩, hstep, hf⟩ := Option.bind_eq_some_iff.1 h
    cases hf
    exact ⟨b, c, queue, rfl, hstep, rfl⟩

/-- A delivery keeps an engine vigilant: what a subscription has read is no longer unread news, but
then the owner of the object is pending. -/
theorem Vigilant.deliver (h : e.Vigilant p seen) {index : Nat}
    (hdeliver : e.deliver Platform.client index p = some f) : f.Vigilant p seen := by
  obtain ⟨b, c, queue, hb, hstep, rfl⟩ := of_deliver hdeliver
  rw [h.running] at hstep
  have hgrows := Subscription.grows_of_step? h.orderly hstep
  have hc : c ∈ e.subscriptions.set index c := List.mem_set (List.getElem?_eq_some_iff.1 hb).1 c
  have halerted : ∀ {id m}, e.registry.get? id = some m → m.ending = none → ∀ side,
      e.Alerted p id (m.refOf side) →
      { e with subscriptions := e.subscriptions.set index c, queue }.Alerted p id
        (m.refOf side) := by
    intro id m hm hexecuting side halerted
    rcases halerted with hdirty | ⟨d, hd, hunread⟩
    · exact .inl (hgrows.dirty_subset id hdirty)
    · rcases mem_set_or hd index with hd | hd
      · exact .inr ⟨d, hd, hunread⟩
      · -- these are the news that are delivered
        obtain rfl : b = d := Option.some.inj (hb.symm.trans hd)
        have howner := h.coherent.owns id m hm hexecuting side
        rcases hunread.after_step h.orderly howner hstep with hunread | hdirty
        · exact .inr ⟨c, hc, hunread⟩
        · exact .inl hdirty
  exact
    { h with
      orderly := hgrows.orderly
      staffed := h.staffed.of_grows hgrows
      followed := fun kind hwatched => by
        obtain ⟨d, hd, hfollows⟩ := h.followed kind hwatched
        rcases mem_set_or hd index with hd | hd
        · exact ⟨d, hd, hfollows⟩
        · obtain rfl : b = d := Option.some.inj (hb.symm.trans hd)
          exact ⟨c, hc, hfollows.after_step hstep⟩
      held := fun n id m hholds hm hexecuting q hq side =>
        (h.held n id m hholds hm hexecuting q hq side).imp_right (halerted hm hexecuting side)
      covered := fun id m hm hexecuting =>
        (h.covered id m hm hexecuting).imp (hgrows.awaits id) (fun _ hn => hn)
          (halerted hm hexecuting) }

/-! ## Workers -/

/-- The engine after a worker has run at the queue. -/
def afterWake (e : Engine) (n : Nat) : Engine :=
  let (handout, queue) := e.queue.serve n
  ({ e with queue } : Engine).afterHandout n handout

/-- A worker that can finish a pass holds a migration. -/
theorem of_perform_process {σ : Type} {client : Client σ} {s : σ} {now : Nat} {result : Engine × σ}
    (h : e.perform client now (.process n) s = some result) :
    ∃ id, stateOf? e.workers n = some (.holding id) ∧
      e.processHeld client now n id s = result := by
  unfold Engine.perform at h
  dsimp only at h
  split at h
  · next id isHeld hn =>
    refine ⟨id, ?_, Option.some.inj h⟩
    unfold stateOf?
    rw [hn]
    rfl
  · cases h

/-- A worker that can run at the queue is awake. -/
theorem of_perform_wake {σ : Type} {client : Client σ} {s : σ} {now : Nat} {result : Engine × σ}
    (h : e.perform client now (.wake n) s = some result) :
    n ∈ e.queue.wakeups.ready ∧ (e.afterWake n, s) = result := by
  unfold Engine.perform at h
  dsimp only at h
  split at h
  · next hn => exact ⟨hn, Option.some.inj h⟩
  · cases h

/-- A worker that gets a migration keeps an engine vigilant; what it may read from now on is the
platform as it is, not as it was before. -/
theorem Vigilant.hold (h : e.Vigilant p seen) (hwaiting : n ∈ e.queue.waiting)
    {queue : WorkQueue MigrationId} (hhands : e.queue.HandsOut n id queue) :
    { e with queue, workers := Worker.set e.workers n (.holding id) }.Vigilant p
      fun k => if k = n then [p] else seen k := by
  have hself : stateOf? (Worker.set e.workers n (.holding id)) n = some (.holding id) :=
    Worker.stateOf?_set_self ((h.staffed.mem_waiting_iff n).1 hwaiting) _
  have halerted : ∀ {x r}, x ≠ id → e.Alerted p x r →
      Alerted { e with queue, workers := Worker.set e.workers n (.holding id) } p x r :=
    fun hx halerted => halerted.imp_left fun hmem => hhands.dirty_of_ne _ hmem hx
  exact
    { h with
      orderly := hhands.orderly
      staffed := h.staffed.hold hwaiting hhands
      past := fun k q hq => by
        split at hq
        · rw [List.mem_singleton.1 hq]
          exact ⟨h.sound, .refl p⟩
        · exact h.past k q hq
      current := fun k => by
        split
        · exact List.mem_singleton_self p
        · exact h.current k
      held := fun k x m hholds hm hexecuting q hq side => by
        rcases Worker.of_stateOf?_set hholds with ⟨hk, -⟩ | ⟨hk, hheld⟩
        · -- this worker has read nothing yet
          rw [if_pos hk, List.mem_singleton] at hq
          exact .inl (by rw [hq])
        · rw [if_neg hk] at hq
          have hx : x ≠ id := by
            rintro rfl
            exact hhands.not_processing ((h.staffed.mem_processing_iff x).2 ⟨k, hheld⟩)
          exact (h.held k x m hheld hm hexecuting q hq side).imp_right (halerted hx)
      covered := fun x m hm hexecuting => by
        by_cases hx : x = id
        · exact .inr (.inl ⟨n, hx ▸ hself⟩)
        refine (h.covered x m hm hexecuting).imp (fun hawaits => ?_) (fun k hk => ?_)
          fun _ => halerted hx
        · exact hawaits.imp (fun hmem => hhands.dirty_of_ne x hmem hx)
            fun hdelay => hhands.delayed_eq ▸ hdelay
        · exact (Worker.stateOf?_set_of_ne _ (h.staffed.ne_of_holding hwaiting hk) _).trans hk }

/-- Waking a worker keeps an engine vigilant, whether it goes back to sleep or gets a migration. -/
theorem Vigilant.wake (h : e.Vigilant p seen) (hn : n ∈ e.queue.wakeups.ready) :
    (e.afterWake n).Vigilant p seen ∨
    (e.afterWake n).Vigilant p (fun k => if k = n then [p] else seen k) ∧
      stateOf? (e.afterWake n).workers n ≠ stateOf? e.workers n := by
  have hwaiting : n ∈ e.queue.waiting := List.mem_append_left _ hn
  have hidle := (h.staffed.mem_waiting_iff n).1 hwaiting
  unfold afterWake
  rcases WorkQueue.serve_cases h.orderly hn with
    ⟨queue, hserve, hgrows⟩ | ⟨x, queue, hserve, hhands⟩
  · rw [hserve]
    exact .inl (h.grow hgrows)
  · rw [hserve]
    refine .inr ⟨h.hold hwaiting hhands, ?_⟩
    show stateOf? (Worker.set e.workers n (.holding x)) n ≠ _
    rw [Worker.stateOf?_set_self hidle, hidle]
    nofun

/-! ## Passes -/

/-- After a pass its migration is done with; after a failed write it will come up again. -/
theorem releases_afterPass {queue : WorkQueue MigrationId} (h : queue.Orderly)
    (hid : id ∈ queue.processing) (now : Nat) (answer : Except WriteError Unit) :
    queue.Releases id (afterPass queue now id answer) ∧
      ∀ w, answer = .error w → (afterPass queue now id answer).Awaits id := by
  cases answer with
  | ok =>
    have hforget := WorkQueue.grows_withFailures h (queue.failures.erase id)
    refine ⟨hforget.releases (WorkQueue.releases_done hforget.orderly hid), nofun⟩
  | error e =>
    obtain ⟨hgrows, hawaits⟩ := WorkQueue.grows_addRateLimited h now id
    have hdone := WorkQueue.releases_done hgrows.orderly (hgrows.processing_eq ▸ hid)
    exact ⟨hgrows.releases hdone, fun _ _ => hdone.awaits id hawaits⟩

/-- The engine after a worker has come to a verdict on the migration that it holds. -/
def afterVerdict (e : Engine) (now n : Nat) (id : MigrationId) (v : Verdict) : Engine :=
  let queue := afterPass e.queue now id v.answer
  ({ e with
    registry := e.registry.record id now v
    queue := { queue with wakeups := queue.wakeups.enter n } } : Engine).setWorker n .idle

/-- A verdict keeps an engine vigilant, provided that a migration that is executing after it will be
tried again, has changed an object, or has nothing to do. -/
theorem Vigilant.verdict (h : e.Vigilant p seen)
    (hholds : stateOf? e.workers n = some (.holding id)) (now : Nat) (v : Verdict)
    (hafter : ∀ m, e.registry.get? id = some m → m.ending = none → v.ending? now = none →
      (∃ w, v.answer = .error w) ∨ (∃ side, e.Alerted p id (m.refOf side)) ∨
        (m.conclude now v).Idle p) :
    (e.afterVerdict now n id v).Vigilant p seen := by
  have hid : id ∈ e.queue.processing := (h.staffed.mem_processing_iff id).2 ⟨n, hholds⟩
  obtain ⟨hreleases, hretry⟩ := releases_afterPass h.orderly hid now v.answer
  have halerted : ∀ {x r}, e.Alerted p x r → (e.afterVerdict now n id v).Alerted p x r :=
    fun halerted => halerted.imp_left (hreleases.dirty_subset _)
  have hawaits : ∀ {x}, e.queue.Awaits x → (e.afterVerdict now n id v).queue.Awaits x :=
    fun hawaits => hreleases.awaits _ hawaits
  have hother : ∀ {x m}, (e.registry.record id now v).get? x = some m → x ≠ id →
      e.registry.get? x = some m := fun {x m} hm hx => by
    rwa [Registry.get?_record, if_neg hx] at hm
  have hworkers : ∀ {k x}, stateOf? (Worker.set e.workers n .idle) k = some (.holding x) →
      k ≠ n ∧ stateOf? e.workers k = some (.holding x) := fun hk =>
    (Worker.of_stateOf?_set hk).resolve_left fun ⟨_, hstate⟩ => nomatch hstate
  exact
    { h with
      orderly := WorkQueue.orderly_enter hreleases.orderly n
      staffed := by
        refine h.staffed.release hholds h.orderly.processing_nodup hreleases.processing_eq ?_
        exact (WorkQueue.waiting_enter _ n).trans (hreleases.waiting_perm.cons n)
      coherent := h.coherent.record id now v
      followed := fun kind hwatched =>
        h.followed kind ((Registry.isWatched_record e.registry id now v kind).symm.trans hwatched)
      held := fun k x m hk hm hexecuting q hq side => by
        -- other workers hold other migrations
        obtain ⟨hkn, hheld⟩ := hworkers hk
        have hx : x ≠ id := by
          rintro rfl
          exact hkn (h.staffed.holder_unique k n x hheld hholds)
        exact (h.held k x m hheld (hother hm hx) hexecuting q hq side).imp_right halerted
      covered := fun x m hm hexecuting => by
        by_cases hx : x = id
        · -- the migration of the verdict
          subst hx
          have hm : (e.registry.record x now v).get? x = some m := hm
          rw [Registry.get?_record, if_pos rfl] at hm
          obtain ⟨m₀, hm₀, rfl⟩ := Option.map_eq_some_iff.1 hm
          rw [Migration.ending_conclude_eq_none_iff] at hexecuting
          rcases hafter m₀ hm₀ hexecuting.2 hexecuting.1 with ⟨w, hw⟩ | ⟨side, hside⟩ | hidle
          · exact .inl (hretry w hw)
          · refine .inr (.inr (.inl ⟨side, ?_⟩))
            rw [Migration.refOf_conclude]
            exact halerted hside
          · exact .inr (.inr (.inr hidle))
        · refine (h.covered x m (hother hm hx) hexecuting).imp hawaits (fun k hk => ?_)
            fun _ => halerted
          have hkn : k ≠ n := by
            rintro rfl
            rw [hholds, Option.some.injEq, WorkerState.holding.injEq] at hk
            exact hx hk.symm
          exact (Worker.stateOf?_set_of_ne _ hkn _).trans hk }

/-- A worker that holds a migration comes to the verdict of a pass over it, if it is known. -/
theorem processHeld_eq {σ : Type} (client : Client σ) (now n : Nat) (id : MigrationId) (e : Engine)
    (s : σ) :
    e.processHeld client now n id s =
      match e.registry.get? id with
      | none => (e.afterVerdict now n id .unchanged, s)
      | some m =>
        let (v, s) := m.pass client e.retryLimit now s
        (e.afterVerdict now n id v, s) := by
  unfold Engine.processHeld Engine.reconcile Registry.reconcile afterVerdict
  cases e.registry.get? id with
  | none =>
    rw [Registry.record_unchanged]
    rfl
  | some m => rfl

/-- A write that a pass has landed is news of the object that was written. -/
theorem Vigilant.alerted_of_landed (h : e.Vigilant p seen) (hm : e.registry.get? id = some m)
    (hexecuting : m.ending = none) {read : ResourceRef → Except PlatformError Workload}
    (hheld : ∀ r w, read r = .ok w → p.Held r w) {limit now : Nat} {side : Side}
    {k generation : Int}
    (hpass : m.pass (Platform.clientReading read) limit now p = (.landed side k generation, q)) :
    ∃ side, e.Alerted q id (m.refOf side) := by
  have hevolves : p.Evolves q := by
    have := Migration.evolves_pass_reading read limit now m p
    rwa [hpass] at this
  rcases Migration.pass_held_cases hheld limit now m with
    ⟨-, hverdict⟩ | ⟨a, b, side', k', -, -, -, -, -, href, hstored, hpass'⟩
  · rw [hpass] at hverdict
    cases hverdict
  obtain rfl : q = _ := congrArg Prod.snd (hpass.symm.trans hpass')
  have hnews := h.object?_eq_or_alerted hm hexecuting hevolves side'
  refine ⟨side', hnews.resolve_left fun hstay => ?_⟩
  -- the object has a version that is later than the one it had
  have hlt := h.sound.version_lt _ _ hstored
  rw [Platform.object?_store, Workload.ref_stamped, Workload.ref_moved, href, if_pos rfl,
    hstored, Option.some.injEq] at hstay
  have hversion : p.nextVersion = (side'.pick a b).metadata.resourceVersion :=
    congrArg (·.metadata.resourceVersion) hstay
  omega

/-- If a pass has found nothing to do in what it has read, either there are news of an object or
there is nothing to do. -/
theorem Vigilant.alerted_or_idle_of_unchanged (h : e.Vigilant p seen)
    (hholds : stateOf? e.workers n = some (.holding id)) (hm : e.registry.get? id = some m)
    (hexecuting : m.ending = none) {read : ResourceRef → Except PlatformError Workload}
    (hseen : ∀ r w, read r = .ok w → ∃ s ∈ seen n, s.object? r = some w) {limit now : Nat}
    (hpass : m.pass (Platform.clientReading read) limit now p = (.unchanged, q)) :
    (∃ side, e.Alerted q id (m.refOf side)) ∨ m.Idle q := by
  have hverdict : (m.pass (Platform.clientReading read) limit now p).1 = .unchanged :=
    congrArg Prod.fst hpass
  obtain ⟨hsame, hcomplete, a, b, ha, hb, hintent⟩ :=
    Migration.of_pass_unchanged hexecuting hverdict
  obtain rfl : q = p := (congrArg Prod.snd hpass).symm.trans hsame
  -- what was read is as it is now, unless there are news of it
  have hside : ∀ side, q.object? (m.refOf side) = some (side.pick a b) ∨
      e.Alerted q id (m.refOf side) := by
    intro side
    have hget : read (m.refOf side) = .ok (side.pick a b) := by
      cases side with
      | src => exact ha
      | dst => exact hb
    obtain ⟨s, hs, hstored⟩ := hseen _ _ hget
    exact (h.held n id m hholds hm hexecuting s hs side).imp_left fun heq => heq.symm.trans hstored
  rcases hside .src with hsrc | halerted
  · rcases hside .dst with hdst | halerted
    · exact .inr ⟨hcomplete, a, b, hsrc, hdst, hintent⟩
    · exact .inl ⟨.dst, halerted⟩
  · exact .inl ⟨.src, halerted⟩

/-- Given reads of states that a worker may have seen, an executing migration for which a pass
decides nothing will be tried again, has changed an object, or has nothing to do. -/
theorem Vigilant.of_pass (h : e.Vigilant p seen)
    (hholds : stateOf? e.workers n = some (.holding id)) (hm : e.registry.get? id = some m)
    (hexecuting : m.ending = none) {read : ResourceRef → Except PlatformError Workload}
    (hread : ∀ r, ∃ q ∈ seen n, read r = q.get r) {limit now : Nat} {v : Verdict} {q : Platform}
    (hpass : m.pass (Platform.clientReading read) limit now p = (v, q))
    (hending : v.ending? now = none) :
    (∃ w, v.answer = .error w) ∨ (∃ side, e.Alerted q id (m.refOf side)) ∨
      (m.conclude now v).Idle q := by
  have hseen : ∀ r w, read r = .ok w → ∃ s ∈ seen n, s.object? r = some w := fun r w hw => by
    obtain ⟨s, hs, hget⟩ := hread r
    exact ⟨s, hs, Platform.object?_of_get (hget.symm.trans hw)⟩
  have hheld : ∀ r w, read r = .ok w → p.Held r w := fun r w hw => by
    obtain ⟨s, hs, hstored⟩ := hseen r w hw
    exact ⟨s, (h.past n s hs).1, (h.past n s hs).2, hstored⟩
  cases v with
  | succeeded => cases hending
  | failed cause => cases hending
  | refused w => exact .inl ⟨w, rfl⟩
  | landed side k generation =>
    exact .inr (.inl (h.alerted_of_landed hm hexecuting hheld hpass))
  | unchanged =>
    exact .inr (h.alerted_or_idle_of_unchanged hholds hm hexecuting hseen hpass)

/-- Let a worker finish a pass in which each read has been answered by a state of the platform that
the worker may have seen: the engine stays vigilant. -/
theorem Vigilant.processHeld (h : e.Vigilant p seen)
    (hholds : stateOf? e.workers n = some (.holding id))
    {read : ResourceRef → Except PlatformError Workload}
    (hread : ∀ r, ∃ q ∈ seen n, read r = q.get r) (now : Nat) :
    let result := e.processHeld (Platform.clientReading read) now n id p
    result.1.Vigilant result.2 fun k => result.2 :: seen k := by
  rw [processHeld_eq]
  cases hm : e.registry.get? id with
  | none =>
    refine (h.verdict hholds now .unchanged fun m hm' => ?_).after_evolves (.refl p)
    cases hm.symm.trans hm'
  | some m =>
    rcases hpass : m.pass (Platform.clientReading read) e.retryLimit now p with ⟨v, q⟩
    have hevolves : p.Evolves q := by
      have := Migration.evolves_pass_reading read e.retryLimit now m p
      rwa [hpass] at this
    dsimp only
    rw [hpass]
    refine (h.after_evolves hevolves).verdict hholds now v fun m' hm' hexecuting hending => ?_
    obtain rfl : m = m' := Option.some.inj (hm.symm.trans hm')
    exact h.of_pass hholds hm hexecuting hread hpass hending

end Handover.Engine
