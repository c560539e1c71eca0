import Handover.Migrator
import Handover.Proofs.Registry.Exclusive
import Mathlib.Logic.Relation

/-!
# Exclusive ownership

A migrator is used in any order (`Migrator.Step`), against any client, and the client may be in any
state at each step. Whatever a migrator does is a sequence of changes of its registry, so from its
start on the registry stays exclusive. A submission is refused if one of its objects belongs to an
executing migration, and only then is it refused because an object is taken
(`Migrator.exclusive_ownership`).
-/

namespace Handover

variable {σ : Type}

namespace Registry

/-- A registry that changes lead to. -/
def Changes : Registry → Registry → Prop :=
  Relation.ReflTransGen Change

theorem Exclusive.after_changes {g f : Registry} (h : g.Exclusive) (hchanges : g.Changes f) :
    f.Exclusive := by
  induction hchanges with
  | refl => exact h
  | tail _ hchange ih => exact ih.after_change hchange

/-- A pass changes a registry by its verdict, if at all. -/
theorem changes_reconcile (g : Registry) (client : Client σ) (limit now : Nat) (id : MigrationId)
    (s : σ) : g.Changes (g.reconcile client limit now id s).2.1 := by
  unfold reconcile
  cases g.get? id with
  | none => exact .refl
  | some m => exact .single (.record id now _)

end Registry

open Registry (Changes)

/-! ## What the engine does -/

namespace Engine

/-- Whatever an engine does on its own changes its registry by passes alone. -/
theorem changes_perform {client : Client σ} {now : Nat} {a : Activity} {e f : Engine} {s s' : σ}
    (h : e.perform client now a s = some (f, s')) : e.registry.Changes f.registry := by
  unfold perform at h
  cases a with
  | deliver index =>
    unfold deliver at h
    obtain ⟨f', hf', heq⟩ := Option.map_eq_some_iff.1 h
    simp only [Option.bind_eq_bind, Option.bind_eq_some_iff] at hf'
    obtain ⟨b, -, ⟨b', queue⟩, -, hresult⟩ := hf'
    cases heq
    cases hresult
    exact .refl
  | process worker =>
    dsimp only at h
    split at h
    · next id _ _ =>
      cases h
      exact e.registry.changes_reconcile client e.retryLimit now id s
    · cases h
  | wake worker =>
    dsimp only at h
    split at h
    · cases h
      unfold afterHandout
      cases (e.queue.serve worker).1 <;> exact .refl
    · cases h
  | expire =>
    obtain ⟨queue, -, heq⟩ := Option.map_eq_some_iff.1 h
    cases heq
    exact .refl

end Engine

/-! ## Answers -/

/-- All that can be answered to a submission: it is accepted and its objects are free, or one of
them is taken, or it is refused for another reason. -/
inductive Answered (g : Registry) (src dst : ResourceRef) : Except MigrationError Snapshot → Prop
  | accepted (t : Snapshot) (hsrc : g.ownerOf? src = none) (hdst : g.ownerOf? dst = none) :
      Answered g src dst (.ok t)
  | taken (r : ResourceRef) (hr : r = src ∨ r = dst) (howner : g.ownerOf? r ≠ none) :
      Answered g src dst (.error (.alreadyExecuting r))
  | refused (e : MigrationError) (he : ∀ r, e ≠ .alreadyExecuting r) :
      Answered g src dst (.error e)

/-- What can be answered depends on the index of owners alone. -/
theorem Answered.of_owners_eq {f g : Registry} {src dst : ResourceRef}
    {answer : Except MigrationError Snapshot} (h : Answered f src dst answer)
    (howners : f.owners = g.owners) : Answered g src dst answer := by
  have howner (r : ResourceRef) : f.ownerOf? r = g.ownerOf? r := congrArg (·.get? r) howners
  cases h with
  | accepted t hsrc hdst => exact .accepted t (howner src ▸ hsrc) (howner dst ▸ hdst)
  | taken r hr htaken => exact .taken r hr (howner r ▸ htaken)
  | refused e he => exact .refused e he

namespace OneShot

variable {g : Registry} {src dst r : ResourceRef} {s : σ} {e : MigrationError}

theorem ensureFree_eq (g : Registry) (r : ResourceRef) :
    g.ensureFree r = if g.ownerOf? r = none then .ok () else .error (.alreadyExecuting r) := by
  unfold Registry.ensureFree Table.contains Registry.ownerOf?
  cases g.owners.get? r <;> rfl

/-- Two objects are both free, or one of them is taken. -/
theorem ensureBothFree_cases (g : Registry) (src dst : ResourceRef) :
    (ensureBothFree g src dst = .ok () ∧ g.ownerOf? src = none ∧ g.ownerOf? dst = none) ∨
      ∃ r, ensureBothFree g src dst = .error (.alreadyExecuting r) ∧ (r = src ∨ r = dst) ∧
        g.ownerOf? r ≠ none := by
  unfold ensureBothFree
  rw [ensureFree_eq, ensureFree_eq]
  by_cases hsrc : g.ownerOf? src = none
  · rw [if_pos hsrc]
    by_cases hdst : g.ownerOf? dst = none
    · rw [if_pos hdst]
      exact .inl ⟨rfl, hsrc, hdst⟩
    · rw [if_neg hdst]
      exact .inr ⟨dst, rfl, .inr rfl, hdst⟩
  · rw [if_neg hsrc]
    exact .inr ⟨src, rfl, .inl rfl, hsrc⟩

/-- Whatever goes wrong on the platform, it is not that an object is taken. -/
theorem readSource_ne (client : Client σ) (src dst : ResourceRef) (s : σ) (r : ResourceRef) :
    (readSource client src dst s).1 ≠ .error (.alreadyExecuting r) := by
  unfold readSource ensureAbsent
  rcases client.get src s with ⟨err | source, s'⟩
  · exact fun h => nomatch h
  · dsimp only
    rcases client.get dst s' with ⟨err | found, s''⟩
    · cases err <;> exact fun h => nomatch h
    · exact fun h => nomatch h

theorem createObject_ne (client : Client σ) (w : Workload) (s : σ) (r : ResourceRef) :
    (createObject client w s).1 ≠ .error (.alreadyExecuting r) := by
  unfold createObject
  rcases client.create w s with ⟨err | created, s'⟩
  · cases err <;> exact fun h => nomatch h
  · exact fun h => nomatch h

theorem replaceSource_ne (client : Client σ) (src : ResourceRef) (w : Workload) (s : σ)
    (r : ResourceRef) : (replaceSource client src w s).1 ≠ .error (.alreadyExecuting r) := by
  have hcreate := createObject_ne client w s r
  unfold replaceSource
  rcases hresult : createObject client w s with ⟨err | created, s'⟩
  · rwa [hresult] at hcreate
  · dsimp only
    rcases client.delete src .orphan s' with ⟨err | done, s''⟩
    · exact fun h => nomatch h
    · exact fun h => nomatch h

theorem transfer_ne (client : Client σ) (pair : Pair) (src dst : ResourceRef)
    (copyReplicas : Bool) (s : σ) (r : ResourceRef) :
    (transfer client pair src dst copyReplicas s).1 ≠ .error (.alreadyExecuting r) := by
  have hread := readSource_ne client src dst s r
  unfold transfer
  rcases hresult : readSource client src dst s with ⟨err | source, s'⟩
  · rw [hresult] at hread
    exact hread
  · cases pair.strategy with
    | boundedSurge => exact fun h => nomatch h
    | oneShot => exact replaceSource_ne client src _ s' r

/-- Migrating in one shot registers a migration that has ended, if anything. -/
theorem changes_migrate (client : Client σ) (pair : Pair) (src dst : ResourceRef)
    (copyReplicas : Bool) {id : MigrationId} (now : Nat) (hnew : g.get? id = none) (s : σ) :
    g.Changes (migrate client pair src dst copyReplicas id now g s).2.1 := by
  unfold migrate
  cases ensureBothFree g src dst with
  | error err => exact .refl
  | ok =>
    dsimp only
    rcases transfer client pair src dst copyReplicas s with ⟨err | created, s'⟩
    · exact .refl
    · exact .single (.enter (.completed id src dst pair created.declared now) rfl hnew)

theorem answered_migrate (client : Client σ) (pair : Pair) (src dst : ResourceRef)
    (copyReplicas : Bool) (id : MigrationId) (now : Nat) (g : Registry) (s : σ) :
    Answered g src dst (migrate client pair src dst copyReplicas id now g s).1 := by
  have htransfer := transfer_ne client pair src dst copyReplicas s
  unfold migrate
  rcases ensureBothFree_cases g src dst with ⟨hfree, hsrc, hdst⟩ | ⟨r, htaken, hr, howner⟩
  · rw [hfree]
    dsimp only
    rcases hresult : transfer client pair src dst copyReplicas s with ⟨err | created, s'⟩
    · refine .refused err fun r heq => htransfer r ?_
      rw [hresult, heq]
    · exact .accepted _ hsrc hdst
  · rw [htaken]
    exact .taken r hr howner

end OneShot

/-! ## What the migrator does -/

namespace Migrator

variable {client : Client σ} {m n : Migrator} {e : Engine} {s : σ} {t : Migration}
  {src dst r : ResourceRef} {id : MigrationId}

/-- Watching a kind changes the registry only by marking the kind. -/
theorem watch_registry (client : Client σ) (kind : WorkloadKind) (e : Engine) (s : σ) :
    e.registry.Changes (watch client kind e s).2.1.registry ∧
      (watch client kind e s).2.1.registry.migrations = e.registry.migrations ∧
      (watch client kind e s).2.1.registry.owners = e.registry.owners := by
  unfold watch Engine.subscribe
  split
  · exact ⟨.refl, rfl, rfl⟩
  · rcases client.watch kind s with ⟨err | receiver, s'⟩
    · exact ⟨.refl, rfl, rfl⟩
    · exact ⟨.single (.markWatched kind), rfl, rfl⟩

theorem watchPair_registry (client : Client σ) (pair : Pair) (e : Engine) (s : σ) :
    e.registry.Changes (watchPair client pair e s).2.1.registry ∧
      (watchPair client pair e s).2.1.registry.migrations = e.registry.migrations ∧
      (watchPair client pair e s).2.1.registry.owners = e.registry.owners := by
  obtain ⟨hchanges, hmigrations, howners⟩ := watch_registry client pair.srcKind e s
  unfold watchPair
  rcases hresult : watch client pair.srcKind e s with ⟨err | done, f, s'⟩
  · rw [hresult] at hchanges hmigrations howners
    exact ⟨hchanges, hmigrations, howners⟩
  · rw [hresult] at hchanges hmigrations howners
    obtain ⟨hchanges', hmigrations', howners'⟩ := watch_registry client pair.dstKind f s'
    exact ⟨hchanges.trans hchanges', hmigrations'.trans hmigrations, howners'.trans howners⟩

/-- The two objects of a pair are different ones. -/
theorem ne_of_ofRefs? {pair : Pair} (h : Pair.ofRefs? src dst = some pair) : src ≠ dst := by
  obtain ⟨hsrc, hdst⟩ := Pair.ofRefs?_eq_some_iff.1 h
  rintro rfl
  rw [hsrc] at hdst
  cases pair <;> cases hdst

/-- Claiming the objects of a new migration registers it if they are free. -/
theorem changes_claim (hexecuting : t.isTerminal = false)
    (hpair : Pair.ofRefs? t.src t.dst = some t.pair) (hnew : e.registry.get? t.id = none) (s : σ) :
    e.registry.Changes (claim client t e s).2.1.registry := by
  obtain ⟨hchanges, hmigrations, howners⟩ := watchPair_registry client t.pair e s
  unfold claim
  rcases OneShot.ensureBothFree_cases e.registry t.src t.dst with
    ⟨hfree, hsrc, hdst⟩ | ⟨r, htaken, -, -⟩
  · rw [hfree]
    dsimp only
    rcases hresult : watchPair client t.pair e s with ⟨err | done, f, s'⟩
    · rw [hresult] at hchanges
      exact hchanges
    · rw [hresult] at hchanges hmigrations howners
      refine hchanges.tail (.claim t hexecuting ?_ (ne_of_ofRefs? hpair) ?_ ?_)
      · exact (congrArg (·.get? t.id) hmigrations).trans hnew
      · exact (congrArg (·.get? t.src) howners).trans hsrc
      · exact (congrArg (·.get? t.dst) howners).trans hdst
  · rw [htaken]
    exact .refl

theorem answered_claim (client : Client σ) (t : Migration) (e : Engine) (s : σ) :
    Answered e.registry t.src t.dst (claim client t e s).1 := by
  unfold claim
  rcases OneShot.ensureBothFree_cases e.registry t.src t.dst with
    ⟨hfree, hsrc, hdst⟩ | ⟨r, htaken, hr, howner⟩
  · rw [hfree]
    dsimp only
    rcases watchPair client t.pair e s with ⟨err | done, f, s'⟩
    · exact .refused _ fun r heq => nomatch heq
    · exact .accepted _ hsrc hdst
  · rw [htaken]
    exact .taken r hr howner

/-- Looking at the two objects may go wrong, but not because one is taken. -/
theorem appraise_ne (client : Client σ) (src dst : ResourceRef) (request : Request) (s : σ)
    (r : ResourceRef) : (appraise client src dst request s).1 ≠ .error (.alreadyExecuting r) := by
  unfold appraise
  rcases client.get src s with ⟨err | source, s'⟩
  · exact fun h => nomatch h
  · dsimp only
    rcases client.get dst s' with ⟨err | destination, s''⟩
    · exact fun h => nomatch h
    · dsimp only
      cases request.resolve source.declared <;> exact fun h => nomatch h

theorem changes_submitIncremental (client : Client σ) (now : Nat) {pair : Pair}
    (hpair : Pair.ofRefs? src dst = some pair) (request : Request)
    (hnew : e.registry.get? id = none) (s : σ) :
    e.registry.Changes
      (submitIncremental client now id pair src dst request e s).2.1.registry := by
  unfold submitIncremental
  rcases appraise client src dst request s with ⟨err | ⟨goal, baseline⟩, s'⟩
  · exact .refl
  · exact changes_claim (t := .start id src dst pair goal baseline now) rfl hpair hnew s'

theorem answered_submitIncremental (client : Client σ) (now : Nat) (id : MigrationId) (pair : Pair)
    (src dst : ResourceRef) (request : Request) (e : Engine) (s : σ) :
    Answered e.registry src dst (submitIncremental client now id pair src dst request e s).1 := by
  have happraise := appraise_ne client src dst request s
  unfold submitIncremental
  rcases hresult : appraise client src dst request s with ⟨err | ⟨goal, baseline⟩, s'⟩
  · refine .refused err fun r heq => happraise r ?_
    rw [hresult, heq]
  · exact answered_claim client (.start id src dst pair goal baseline now) e s'

/-- A submission evicts finished migrations and registers a new one, if anything. -/
theorem changes_submit (client : Client σ) (now : Nat) (hnew : m.engine.registry.get? id = none)
    (src dst : ResourceRef) (request : Request) (s : σ) :
    m.engine.registry.Changes (m.submit client now id src dst request s).2.1.engine.registry := by
  have hprune : m.engine.registry.Changes (m.prune now).engine.registry :=
    .single (.prune m.settings.retention now)
  have hnew' : (m.prune now).engine.registry.get? id = none := by
    by_contra hsome
    obtain ⟨t, ht⟩ := Option.ne_none_iff_exists'.1 hsome
    rw [Registry.get?_of_get?_prune ht] at hnew
    cases hnew
  unfold submit
  split
  · exact .refl
  · dsimp only
    split
    · exact hprune
    · exact hprune
    · next pair _ hpair =>
      unfold submitPair
      cases pair.strategy with
      | boundedSurge =>
        exact hprune.trans (changes_submitIncremental client now hpair request hnew' s)
      | oneShot =>
        exact hprune.trans
          (OneShot.changes_migrate client pair src dst request.copyReplicas now hnew' s)

/-- Only an object that is taken makes a submission refused because an object is taken. -/
theorem answered_submit (client : Client σ) (now : Nat) (id : MigrationId) (src dst : ResourceRef)
    (request : Request) (m : Migrator) (s : σ) :
    Answered m.engine.registry src dst (m.submit client now id src dst request s).1 := by
  unfold submit
  split
  · exact .refused _ fun r heq => nomatch heq
  · dsimp only
    split
    · exact .refused _ fun r heq => nomatch heq
    · exact .refused _ fun r heq => nomatch heq
    · next pair _ _ =>
      -- eviction leaves the index of owners as it is
      refine Answered.of_owners_eq (f := (m.prune now).engine.registry) ?_ rfl
      unfold submitPair
      cases pair.strategy with
      | boundedSurge =>
        exact answered_submitIncremental client now id pair src dst request (m.prune now).engine s
      | oneShot =>
        exact OneShot.answered_migrate client pair src dst request.copyReplicas id now
          (m.prune now).engine.registry s

/-! ## Runs -/

/-- A step of a migrator: a submission under a new identifier, or its second part alone, after
others have gone between; something that the engine does on its own; a pass that anybody asks for,
or the verdict of one that began earlier; the end of a migration; eviction; or the end of the
work. -/
inductive Step (client : Client σ) (m : Migrator) : Migrator → Prop
  | submit (now : Nat) (id : MigrationId) (src dst : ResourceRef) (request : Request) (s : σ)
      (hnew : m.engine.registry.get? id = none) :
      Step client m (m.submit client now id src dst request s).2.1
  | claim (t : Migration) (s : σ) (hexecuting : t.isTerminal = false)
      (hpair : Pair.ofRefs? t.src t.dst = some t.pair)
      (hnew : m.engine.registry.get? t.id = none) :
      Step client m { m with engine := (claim client t m.engine s).2.1 }
  | complete (t : Migration) (hterminal : t.isTerminal = true)
      (hnew : m.engine.registry.get? t.id = none) :
      Step client m (m.withRegistry (m.engine.registry.register t))
  | work (now : Nat) (a : Activity) (s s' : σ) (e : Engine)
      (h : m.engine.perform client now a s = some (e, s')) : Step client m { m with engine := e }
  | pass (now : Nat) (id : MigrationId) (s : σ) :
      Step client m { m with engine := (m.engine.reconcile client now id s).2.1 }
  | late (now : Nat) (id : MigrationId) (v : Verdict) :
      Step client m (m.withRegistry (m.engine.registry.record id now v))
  | finish (id : MigrationId) (ending : Ending) :
      Step client m (m.withRegistry (m.engine.registry.finish id ending).2)
  | prune (policy : Retention) (now : Nat) :
      Step client m (m.withRegistry (m.engine.registry.prune policy now).2)
  | stop : Step client m m.requestStop
  | dismiss : Step client m m.dismiss

/-- A migrator that steps lead to from its start. -/
def Reachable (client : Client σ) (settings : Settings) : Migrator → Prop :=
  Relation.ReflTransGen (Step client) (start settings)

/-- Every step changes the registry in the ways in which a registry changes. -/
theorem Step.changes (h : m.Step client n) : m.engine.registry.Changes n.engine.registry := by
  cases h with
  | submit now id src dst request s hnew => exact changes_submit client now hnew src dst request s
  | claim t s hexecuting hpair hnew => exact changes_claim hexecuting hpair hnew s
  | complete t hterminal hnew => exact .single (.enter t hterminal hnew)
  | work now a s s' e hperform => exact Engine.changes_perform hperform
  | pass now id s => exact m.engine.registry.changes_reconcile client m.engine.retryLimit now id s
  | late now id v => exact .single (.record id now v)
  | finish id ending => exact .single (.finish id ending)
  | prune policy now => exact .single (.prune policy now)
  | stop => exact .refl
  | dismiss => exact .refl

theorem Reachable.exclusive {settings : Settings} (h : Reachable client settings m) :
    m.engine.registry.Exclusive := by
  induction h with
  | refl => exact Registry.exclusive_empty
  | tail _ hstep ih => exact ih.after_changes hstep.changes

/-- In every migrator that steps lead to, an object is owned by a migration just if that is known,
executing, and has the object as its source or destination. So no two executing migrations share an
object, and the index of owners has two entries for each of them and no others. A submission is
refused if an executing migration has one of its objects, and it is not refused because an object is
taken if none has. -/
theorem exclusive_ownership {settings : Settings} (h : Reachable client settings m) :
    let g := m.engine.registry
    (∀ r id, g.ownerOf? r = some id ↔
      ∃ t, g.get? id = some t ∧ t.isTerminal = false ∧ (t.src = r ∨ t.dst = r)) ∧
      (∀ r id other, g.Occupies id r → g.Occupies other r → id = other) ∧
      (∀ id t, g.get? id = some t → t.isTerminal = false →
        (g.owners.entries.filter (·.2 = id)).Perm [(t.src, id), (t.dst, id)]) ∧
      g.owners.size = 2 * (g.migrations.values.filter fun t => !t.isTerminal).length ∧
      ∀ now new src dst request s,
        ((∃ id, g.Occupies id src ∨ g.Occupies id dst) →
          ∃ e, (m.submit client now new src dst request s).1 = .error e) ∧
        ((∀ id, ¬ g.Occupies id src ∧ ¬ g.Occupies id dst) →
          ∀ r, (m.submit client now new src dst request s).1 ≠ .error (.alreadyExecuting r)) := by
  intro g
  have hg : g.Exclusive := h.exclusive
  refine ⟨fun r id => ?_, fun r id other => hg.eq_of_occupies,
    fun id t ht hexecuting => hg.entries_perm ht hexecuting, hg.size_owners,
    fun now new src dst request s => ⟨?_, ?_⟩⟩
  · rw [hg.owner_iff]
    exact exists_congr fun t => and_congr_right fun _ => and_congr_right fun _ =>
      Migration.names_iff
  · rintro ⟨id, hid⟩
    have hanswered := answered_submit client now new src dst request m s
    generalize (m.submit client now new src dst request s).1 = answer at hanswered
    cases hanswered with
    | accepted t hsrc hdst =>
      rcases hid with hid | hid
      · exact absurd hid ((hg.ownerOf?_eq_none_iff src).1 hsrc id)
      · exact absurd hid ((hg.ownerOf?_eq_none_iff dst).1 hdst id)
    | taken r _ _ => exact ⟨_, rfl⟩
    | refused e _ => exact ⟨e, rfl⟩
  · intro hfree r hanswer
    have hanswered := answered_submit client now new src dst request m s
    rw [hanswer] at hanswered
    cases hanswered with
    | taken _ hr howner =>
      refine howner ((hg.ownerOf?_eq_none_iff r).2 fun id => ?_)
      rcases hr with rfl | rfl
      · exact (hfree id).1
      · exact (hfree id).2
    | refused _ hother => exact hother r rfl

/-- Two deployments want the same clone set: the second one is refused while the migration of the
first one is executing, and gets it afterwards. -/
theorem exclusive_ownership_reused :
    let web : ResourceRef := .of .deployment "default" "web"
    let api : ResourceRef := .of .deployment "default" "api"
    let shared : ResourceRef := .of .cloneSet "default" "shared"
    let put (p : Platform) (w : Workload) := (p.put w).2
    let p := put (put (put (.empty 4) (.named .deployment "default" "web"))
      (.named .deployment "default" "api")) (.named .cloneSet "default" "shared")
    let request : Request := ⟨some 3, some 2, none, false⟩
    let a := start .default
    let b := (a.submit Platform.client 0 ⟨1⟩ web shared request p).2.1
    let c := b.withRegistry (b.engine.registry.finish ⟨1⟩ ⟨false, "given up", 5⟩).2
    let d := (c.submit Platform.client 9 ⟨2⟩ api shared request p).2.1
    Reachable Platform.client .default b ∧
      (∃ e, (b.submit Platform.client 3 ⟨2⟩ api shared request p).1 = .error e) ∧
      Reachable Platform.client .default c ∧
      (∀ r, (c.submit Platform.client 9 ⟨2⟩ api shared request p).1 ≠
        .error (.alreadyExecuting r)) ∧
      Reachable Platform.client .default d ∧
      (∃ t, d.engine.registry.get? ⟨2⟩ = some t ∧ t.isTerminal = false ∧
        (t.src = shared ∨ t.dst = shared)) ∧
      d.engine.registry.owners.size = 2 := by
  intro web api shared put p request a b c d
  have hb : Reachable Platform.client .default b :=
    .single (.submit 0 ⟨1⟩ web shared request p rfl)
  have hc : Reachable Platform.client .default c := hb.tail (.finish ⟨1⟩ _)
  have hd : Reachable Platform.client .default d :=
    hc.tail (.submit 9 ⟨2⟩ api shared request p (by decide +kernel))
  obtain ⟨howner, -, -, -, hsubmit⟩ := exclusive_ownership hb
  obtain ⟨howner', -, -, -, hsubmit'⟩ := exclusive_ownership hc
  obtain ⟨howner'', -, -, hsize, -⟩ := exclusive_ownership hd
  have htaken : b.engine.registry.ownerOf? shared = some ⟨1⟩ := by decide +kernel
  have hfree : c.engine.registry.ownerOf? api = none ∧
      c.engine.registry.ownerOf? shared = none := by
    decide +kernel
  have hagain : d.engine.registry.ownerOf? shared = some ⟨2⟩ := by decide +kernel
  have hexecuting :
      (d.engine.registry.migrations.values.filter fun t => !t.isTerminal).length = 1 := by
    decide +kernel
  have hoccupies : b.engine.registry.Occupies ⟨1⟩ shared := by
    obtain ⟨t, ht, hterminal, hnames⟩ := (howner shared ⟨1⟩).1 htaken
    exact ⟨t, ht, hterminal, Migration.names_iff.2 hnames⟩
  have hvacant : ∀ r, c.engine.registry.ownerOf? r = none →
      ∀ id, ¬ c.engine.registry.Occupies id r := by
    rintro r hr id ⟨t, ht, hterminal, hnames⟩
    rw [(howner' r id).2 ⟨t, ht, hterminal, Migration.names_iff.1 hnames⟩] at hr
    cases hr
  refine ⟨hb, (hsubmit 3 ⟨2⟩ api shared request p).1 ⟨⟨1⟩, .inr hoccupies⟩, hc, ?_, hd,
    (howner'' shared ⟨2⟩).1 hagain, ?_⟩
  · exact (hsubmit' 9 ⟨2⟩ api shared request p).2 fun id =>
      ⟨hvacant api hfree.1 id, hvacant shared hfree.2 id⟩
  · rw [hsize, hexecuting]

end Migrator

end Handover
