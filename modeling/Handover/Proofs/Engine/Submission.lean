import Handover.Proofs.Engine.Vigilance
import Handover.Proofs.Ownership

/-!
# Submissions keep an engine vigilant

A migration that is submitted is watched before it is registered, and it is pending as soon as it is
registered. So a submission keeps an engine vigilant (`Vigilant.submit`), whether the migration is
left to the engine or carried out in one shot. What does not depend on that order is said of the
parts of a submission, and then holds of the whole (`Migrator.SubmissionLaw`).
-/

namespace Handover

/-! ## One-shot migrations -/

namespace OneShot

theorem readSource_client (src dst : ResourceRef) (p : Platform) :
    (readSource Platform.client src dst p).2 = p := by
  unfold readSource ensureAbsent
  simp only [Platform.client]
  cases p.get src with
  | error e => rfl
  | ok source =>
    dsimp only
    cases p.get dst with
    | ok destination => rfl
    | error e => cases e <;> rfl

theorem evolves_createObject (w : Workload) (p : Platform) :
    p.Evolves (createObject Platform.client w p).2 := by
  have hcreate := Platform.evolves_create p w
  unfold createObject
  simp only [Platform.client]
  rcases h : p.create w with ⟨e | created, q⟩
  · rwa [h] at hcreate
  · rwa [h] at hcreate

theorem evolves_replaceSource (src : ResourceRef) (w : Workload) (p : Platform) :
    p.Evolves (replaceSource Platform.client src w p).2 := by
  have hcreate := evolves_createObject w p
  unfold replaceSource
  rcases h : createObject Platform.client w p with ⟨e | created, q⟩
  · rwa [h] at hcreate
  · rw [h] at hcreate
    have hdelete := Platform.evolves_delete q src .orphan
    dsimp only [Platform.client] at hcreate ⊢
    rcases h' : q.delete src .orphan with ⟨e | done, s⟩
    · rw [h'] at hdelete
      exact hcreate.trans hdelete
    · rw [h'] at hdelete
      exact hcreate.trans hdelete

theorem evolves_transfer (pair : Pair) (src dst : ResourceRef) (copyReplicas : Bool)
    (p : Platform) : p.Evolves (transfer Platform.client pair src dst copyReplicas p).2 := by
  have hread := readSource_client src dst p
  unfold transfer
  rcases h : readSource Platform.client src dst p with ⟨e | source, q⟩
  · rw [h] at hread
    obtain rfl : q = p := hread
    exact .refl q
  · rw [h] at hread
    obtain rfl : q = p := hread
    cases pair.strategy with
    | boundedSurge => exact .refl q
    | oneShot => exact evolves_replaceSource src _ q

theorem evolves_createDestination (src dst : ResourceRef) (copyReplicas : Bool) (p : Platform) :
    p.Evolves (createDestination Platform.client src dst copyReplicas p).2 := by
  have hread := readSource_client src dst p
  unfold createDestination
  split
  · rcases h : readSource Platform.client src dst p with ⟨e | source, q⟩
    · rw [h] at hread
      obtain rfl : q = p := hread
      exact .refl q
    · rw [h] at hread
      obtain rfl : q = p := hread
      exact evolves_createObject _ q
  · exact .refl p

end OneShot

namespace Engine

open Worker (stateOf?)

variable {e : Engine} {p : Platform} {seen : Nat → List Platform} {m : Migration}

/-! ## The registry -/

/-- An engine stays vigilant if its registry comes to know no other executing migrations. -/
theorem Vigilant.withRegistry (h : e.Vigilant p seen) {registry : Registry}
    (hcoherent : registry.Coherent)
    (hget : ∀ id m, registry.get? id = some m → m.ending = none → e.registry.get? id = some m)
    (hwatched : ∀ kind, registry.isWatched kind = true → e.registry.isWatched kind = true) :
    { e with registry }.Vigilant p seen :=
  { h with
    coherent := hcoherent
    followed := fun kind hkind => h.followed kind (hwatched kind hkind)
    held := fun n id m hholds hm hexecuting =>
      h.held n id m hholds (hget id m hm hexecuting) hexecuting
    covered := fun id m hm hexecuting => h.covered id m (hget id m hm hexecuting) hexecuting }

/-- Eviction keeps an engine vigilant. -/
theorem Vigilant.prune (h : e.Vigilant p seen) (policy : Retention) (now : Nat) :
    { e with registry := (e.registry.prune policy now).2 }.Vigilant p seen :=
  h.withRegistry (h.coherent.prune policy now) (fun _ _ hm _ => Registry.get?_of_get?_prune hm)
    fun _ hkind => hkind

/-- Registering a migration that has ended keeps an engine vigilant. -/
theorem Vigilant.register_of_isTerminal (h : e.Vigilant p seen) (hterminal : m.isTerminal = true) :
    { e with registry := e.registry.register m }.Vigilant p seen := by
  have hcoherent := h.coherent.register_of_isTerminal hterminal
  refine h.withRegistry hcoherent (fun id m' hm' hexecuting => ?_) fun _ hkind => hkind
  rw [Registry.get?_register] at hm'
  split at hm'
  · cases hm'
    unfold Migration.isTerminal at hterminal
    rw [hexecuting] at hterminal
    cases hterminal
  · exact hm'

/-- Registering an executing migration and making it pending keeps an engine vigilant, if its
objects are free and their kinds are watched. -/
theorem Vigilant.enroll (h : e.Vigilant p seen) (hexecuting : m.ending = none)
    (hfree : ∀ side, e.registry.ownerOf? (m.refOf side) = none)
    (hwatched : ∀ side, ∃ kind, (m.refOf side).kind? = some kind ∧
      e.registry.isWatched kind = true) : (Migrator.enroll m e).Vigilant p seen := by
  obtain ⟨hgrows, hdirty⟩ := WorkQueue.grows_add h.orderly m.id
  have hother : ∀ {id m'}, (e.registry.register m).get? id = some m' → id ≠ m.id →
      e.registry.get? id = some m' := fun {id m'} hm' hid => by
    rwa [Registry.get?_register, if_neg hid] at hm'
  have halerted : ∀ {id r}, e.Alerted p id r → (Migrator.enroll m e).Alerted p id r :=
    fun halerted => halerted.imp_left (hgrows.dirty_subset _)
  exact
    { h with
      orderly := hgrows.orderly
      staffed := h.staffed.of_grows hgrows
      coherent := h.coherent.register hexecuting hfree hwatched
      held := fun n id m' hholds hm' hexecuting' q hq side => by
        by_cases hid : id = m.id
        · exact .inr (.inl (hid ▸ hdirty))
        · have hheld := h.held n id m' hholds (hother hm' hid) hexecuting' q hq side
          exact hheld.imp_right halerted
      covered := fun id m' hm' hexecuting' => by
        by_cases hid : id = m.id
        · -- the new migration is pending, or will be when it is no longer processed
          exact .inl (.inl (hid ▸ hdirty))
        exact (h.covered id m' (hother hm' hid) hexecuting').imp (hgrows.awaits id)
          (fun _ hn => hn) fun _ => halerted }

/-! ## Watching -/

/-- Watching a kind succeeds and keeps an engine vigilant; what was watched still is, and nothing is
claimed. -/
theorem Vigilant.watch (h : e.Vigilant p seen) (kind : WorkloadKind) :
    ∃ f, Migrator.watch Platform.client kind e p = (.ok (), f, p) ∧ f.Vigilant p seen ∧
      f.registry.isWatched kind = true ∧
      (∀ other, e.registry.isWatched other = true → f.registry.isWatched other = true) ∧
      ∀ r, f.registry.ownerOf? r = e.registry.ownerOf? r := by
  by_cases hkind : e.registry.isWatched kind = true
  · refine ⟨e, ?_, h, hkind, fun _ hother => hother, fun _ => rfl⟩
    unfold Migrator.watch
    rw [if_pos hkind]
  · -- a new subscription follows the kind from the end of its log on
    let b := Subscription.start kind (p.watch kind)
    have hb : b.Follows kind p := Subscription.follows_start kind p
    have hmem : ∀ c ∈ e.subscriptions, c ∈ e.subscriptions ++ [b] :=
      fun c hc => List.mem_append_left _ hc
    have halerted : ∀ {id r}, e.Alerted p id r →
        Alerted { e with
          subscriptions := e.subscriptions ++ [b]
          registry := e.registry.markWatched kind } p id r :=
      fun halerted => halerted.imp_right fun ⟨c, hc, hunread⟩ => ⟨c, hmem c hc, hunread⟩
    refine ⟨{ e with
        subscriptions := e.subscriptions ++ [b]
        registry := e.registry.markWatched kind }, ?_, ?_, ?_, fun other hother => ?_, fun _ => rfl⟩
    · unfold Migrator.watch
      rw [if_neg hkind]
      rfl
    · exact
        { h with
          coherent := h.coherent.markWatched kind
          followed := fun other hother => by
            rcases (Registry.isWatched_markWatched_iff _ _ _).1 hother with rfl | hother
            · exact ⟨b, List.mem_append_right _ (List.mem_singleton_self b), hb⟩
            · obtain ⟨c, hc, hfollows⟩ := h.followed other hother
              exact ⟨c, hmem c hc, hfollows⟩
          held := fun n id m hholds hm hexecuting q hq side =>
            (h.held n id m hholds hm hexecuting q hq side).imp_right halerted
          covered := fun id m hm hexecuting =>
            (h.covered id m hm hexecuting).imp (fun hawaits => hawaits) (fun _ hn => hn)
              fun _ => halerted }
    · exact (Registry.isWatched_markWatched_iff _ _ _).2 (.inl rfl)
    · exact (Registry.isWatched_markWatched_iff _ _ _).2 (.inr hother)

/-! ## Submitting -/

/-- Watching both kinds of a pair succeeds and keeps an engine vigilant; nothing is claimed. -/
theorem Vigilant.watchPair (h : e.Vigilant p seen) (pair : Pair) :
    ∃ f, Migrator.watchPair Platform.client pair e p = (.ok (), f, p) ∧ f.Vigilant p seen ∧
      (∀ side : Side, f.registry.isWatched (side.pick pair.srcKind pair.dstKind) = true) ∧
      ∀ r, f.registry.ownerOf? r = e.registry.ownerOf? r := by
  obtain ⟨f, hf, hvigilant, hsrc, -, howner⟩ := h.watch pair.srcKind
  obtain ⟨g, hg, hvigilant', hdst, hkeep, howner'⟩ := hvigilant.watch pair.dstKind
  refine ⟨g, ?_, hvigilant', fun side => ?_, fun r => (howner' r).trans (howner r)⟩
  · unfold Migrator.watchPair
    rw [hf]
    exact hg
  · cases side with
    | src => exact hkeep pair.srcKind hsrc
    | dst => exact hdst

/-- Both objects of a migration that may be claimed are free. -/
theorem ownerOf?_of_ensureBothFree {g : Registry}
    (h : OneShot.ensureBothFree g m.src m.dst = .ok ()) (side : Side) :
    g.ownerOf? (m.refOf side) = none := by
  rcases OneShot.ensureBothFree_cases g m.src m.dst with ⟨-, hsrc, hdst⟩ | ⟨r, htaken, -⟩
  · cases side with
    | src => exact hsrc
    | dst => exact hdst
  · rw [htaken] at h
    cases h

/-- Claiming the objects of an executing migration of a pair keeps an engine vigilant. -/
theorem Vigilant.claim (h : e.Vigilant p seen) (hexecuting : m.ending = none)
    (hpair : Pair.ofRefs? m.src m.dst = some m.pair) :
    let result := Migrator.claim Platform.client m e p
    result.2.1.Vigilant p seen ∧ result.2.2 = p := by
  obtain ⟨f, hf, hvigilant, hwatched, howner⟩ := h.watchPair m.pair
  obtain ⟨hsrc, hdst⟩ := Pair.ofRefs?_eq_some_iff.1 hpair
  have hkinds (side : Side) :
      (m.refOf side).kind? = some (side.pick m.pair.srcKind m.pair.dstKind) := by
    cases side with
    | src => exact hsrc
    | dst => exact hdst
  unfold Migrator.claim
  cases hfree : OneShot.ensureBothFree e.registry m.src m.dst with
  | error err => exact ⟨h, rfl⟩
  | ok =>
    dsimp only
    rw [hf]
    refine ⟨hvigilant.enroll hexecuting (fun side => ?_) fun side => ?_, rfl⟩
    · rw [howner]
      exact ownerOf?_of_ensureBothFree hfree side
    · exact ⟨_, hkinds side, hwatched side⟩

theorem appraise_client (src dst : ResourceRef) (request : Request) (p : Platform) :
    (Migrator.appraise Platform.client src dst request p).2 = p := by
  unfold Migrator.appraise
  simp only [Platform.client]
  cases p.get src with
  | error err => rfl
  | ok source =>
    dsimp only
    cases p.get dst with
    | error err => rfl
    | ok destination =>
      dsimp only
      cases request.resolve source.declared <;> rfl

/-- Submitting a migration under a surge bound keeps an engine vigilant. -/
theorem Vigilant.submitIncremental (h : e.Vigilant p seen) (now : Nat) (id : MigrationId)
    {pair : Pair} {src dst : ResourceRef} (hpair : Pair.ofRefs? src dst = some pair)
    (request : Request) :
    let result := Migrator.submitIncremental Platform.client now id pair src dst request e p
    result.2.1.Vigilant p seen ∧ result.2.2 = p := by
  have happraise := appraise_client src dst request p
  unfold Migrator.submitIncremental
  rcases hresult : Migrator.appraise Platform.client src dst request p with
    ⟨err | ⟨goal, baseline⟩, q⟩
  · rw [hresult] at happraise
    obtain rfl : q = p := happraise
    exact ⟨h, rfl⟩
  · rw [hresult] at happraise
    obtain rfl : q = p := happraise
    exact h.claim rfl hpair

/-- Carrying out a migration in one shot keeps an engine vigilant. -/
theorem Vigilant.migrate (h : e.Vigilant p seen) (pair : Pair) (src dst : ResourceRef)
    (copyReplicas : Bool) (id : MigrationId) (now : Nat) :
    let result := OneShot.migrate Platform.client pair src dst copyReplicas id now e.registry p
    { e with registry := result.2.1 }.Vigilant result.2.2 fun n => result.2.2 :: seen n := by
  have htransfer := OneShot.evolves_transfer pair src dst copyReplicas p
  unfold OneShot.migrate
  cases OneShot.ensureBothFree e.registry src dst with
  | error err => exact h.after_evolves (.refl p)
  | ok =>
    dsimp only
    rcases hresult : OneShot.transfer Platform.client pair src dst copyReplicas p with
      ⟨err | created, q⟩
    · rw [hresult] at htransfer
      exact h.after_evolves htransfer
    · rw [hresult] at htransfer
      exact (h.after_evolves htransfer).register_of_isTerminal rfl

/-- A submission of a known pair keeps an engine vigilant. -/
theorem Vigilant.submitPair {migrator : Migrator} (h : migrator.engine.Vigilant p seen) (now : Nat)
    (id : MigrationId) {pair : Pair} {src dst : ResourceRef}
    (hpair : Pair.ofRefs? src dst = some pair) (request : Request) :
    let result := migrator.submitPair Platform.client now id pair src dst request p
    result.2.1.engine.Vigilant result.2.2 fun n => result.2.2 :: seen n := by
  unfold Migrator.submitPair
  cases pair.strategy with
  | boundedSurge =>
    obtain ⟨hvigilant, hplatform⟩ := h.submitIncremental now id hpair request
    dsimp only
    rw [hplatform]
    exact hvigilant.after_evolves (.refl p)
  | oneShot => exact h.migrate pair src dst request.copyReplicas id now

/-- A submission keeps an engine vigilant. -/
theorem Vigilant.submit {migrator : Migrator} (h : migrator.engine.Vigilant p seen) (now : Nat)
    (id : MigrationId) (src dst : ResourceRef) (request : Request) :
    let result := migrator.submit Platform.client now id src dst request p
    result.2.1.engine.Vigilant result.2.2 fun n => result.2.2 :: seen n := by
  have hprune : (migrator.prune now).engine.Vigilant p seen :=
    h.prune migrator.settings.retention now
  unfold Migrator.submit
  split
  · exact h.after_evolves (.refl p)
  · dsimp only
    split
    · exact hprune.after_evolves (.refl p)
    · exact hprune.after_evolves (.refl p)
    · next pair _ hpair =>
      exact hprune.submitPair now id hpair request

end Engine

/-! ## What a submission is made of -/

namespace Migrator

/-- A relation between engines that holds of whatever a submission under an identifier is made of:
eviction, watching, registering a migration without failures, and making it pending. -/
structure SubmissionLaw {σ : Type} (client : Client σ) (id : MigrationId)
    (R : Engine → Engine → Prop) : Prop where
  refl : ∀ e, R e e
  trans : ∀ {e f g}, R e f → R f g → R e g
  prune : ∀ policy now (e : Engine), R e { e with registry := (e.registry.prune policy now).2 }
  watch : ∀ kind (e : Engine) s, R e (watch client kind e s).2.1
  register : ∀ m : Migration, m.id = id → m.writeFailures = 0 →
    ∀ e : Engine, R e { e with registry := e.registry.register m }
  add : ∀ e : Engine, R e { e with queue := e.queue.add id }

namespace SubmissionLaw

variable {σ : Type} {client : Client σ} {id : MigrationId} {R : Engine → Engine → Prop}

/-- Such a relation holds of a claim, if it holds of the registration. -/
theorem claim (h : SubmissionLaw client id R) {m : Migration} (hid : m.id = id)
    (hregister : ∀ e : Engine, R e { e with registry := e.registry.register m }) (e : Engine)
    (s : σ) : R e (claim client m e s).2.1 := by
  have hsrc := h.watch m.pair.srcKind e s
  have henroll (f : Engine) : R f (enroll m f) := by
    have hadd := h.add { f with registry := f.registry.register m }
    rw [← hid] at hadd
    exact h.trans (hregister f) hadd
  unfold Migrator.claim watchPair
  cases OneShot.ensureBothFree e.registry m.src m.dst with
  | error err => exact h.refl e
  | ok =>
    dsimp only
    rcases hwatch : Migrator.watch client m.pair.srcKind e s with ⟨err | done, f, t⟩
    · rw [hwatch] at hsrc
      exact hsrc
    · rw [hwatch] at hsrc
      have hdst := h.watch m.pair.dstKind f t
      dsimp only
      rcases hwatch' : Migrator.watch client m.pair.dstKind f t with ⟨err | done, g, u⟩
      · rw [hwatch'] at hdst
        exact h.trans hsrc hdst
      · rw [hwatch'] at hdst
        exact h.trans (h.trans hsrc hdst) (henroll g)

/-- Such a relation holds of a submission. -/
theorem submit (h : SubmissionLaw client id R) (now : Nat) (src dst : ResourceRef)
    (request : Request) (m : Migrator) (s : σ) :
    R m.engine (m.submit client now id src dst request s).2.1.engine := by
  have hprune : R m.engine (m.prune now).engine := h.prune m.settings.retention now m.engine
  unfold Migrator.submit
  split
  · exact h.refl _
  dsimp only
  split
  · exact hprune
  · exact hprune
  · next pair _ _ =>
    refine h.trans hprune ?_
    unfold submitPair
    cases pair.strategy with
    | boundedSurge =>
      unfold submitIncremental
      rcases appraise client src dst request s with ⟨err | ⟨goal, baseline⟩, t⟩
      · exact h.refl _
      · exact h.claim rfl (h.register _ rfl rfl) (m.prune now).engine t
    | oneShot =>
      dsimp only
      unfold OneShot.migrate
      cases OneShot.ensureBothFree (m.prune now).engine.registry src dst with
      | error err => exact h.refl _
      | ok done =>
        dsimp only
        rcases OneShot.transfer client pair src dst request.copyReplicas s with ⟨err | created, t⟩
        · exact h.refl _
        · exact h.register (.completed id src dst pair created.declared now) rfl rfl _

end SubmissionLaw

end Migrator

end Handover
