import Handover.Proofs.Engine.Retreat
import Handover.Proofs.Ownership

/-!
# Refused submissions

A submission that is refused has looked at the platform, may have evicted finished migrations, and
may have started to follow one kind; everything else is as before (`Engine.Spares`). Whatever a
migrator does, it only starts to follow kinds that it does not follow yet, and remembers them
(`Engine.Extends`), so over a whole run it starts to follow each kind once at most, and the kinds of
a migration that was accepted are watched from then on. `Migrator.refused_submission` is the whole.
-/

namespace Handover

variable {σ : Type}

/-! ## Looking at a platform -/

/-- From one state to another, a client has been left alone but for reads and watches: whatever
these do not change is as it was. -/
structure Client.Leaves (client : Client σ) (s t : σ) : Prop where
  view_eq : ∀ {α : Type} (view : σ → α), (∀ r s, view (client.get r s).2 = view s) →
    (∀ kind s, view (client.watch kind s).2 = view s) → view t = view s

namespace Client.Leaves

variable {client : Client σ} {s t u : σ}

theorem refl (client : Client σ) (s : σ) : client.Leaves s s :=
  ⟨fun _ _ _ => rfl⟩

theorem trans (h : client.Leaves s t) (h' : client.Leaves t u) : client.Leaves s u :=
  ⟨fun view hget hwatch => (h'.view_eq view hget hwatch).trans (h.view_eq view hget hwatch)⟩

theorem get (client : Client σ) (r : ResourceRef) (s : σ) : client.Leaves s (client.get r s).2 :=
  ⟨fun _ hget _ => hget r s⟩

theorem watch (client : Client σ) (kind : WorkloadKind) (s : σ) :
    client.Leaves s (client.watch kind s).2 :=
  ⟨fun _ _ hwatch => hwatch kind s⟩

end Client.Leaves

namespace Engine

variable {client : Client σ} {e f g : Engine} {s t : σ} {now : Nat} {kind : WorkloadKind}

/-! ## Kinds that are followed -/

/-- The kinds that an engine has started to follow, in that order. -/
def kinds (e : Engine) : List WorkloadKind :=
  e.subscriptions.map (·.kind)

/-- An engine that has become another one, which has started to follow some kinds that were not
watched, if any, and has them watched. -/
def Extends (e f : Engine) : Prop :=
  ∃ started : List WorkloadKind, started.Nodup ∧ (∀ kind ∈ started, kind ∉ e.registry.watched) ∧
    f.kinds = e.kinds ++ started ∧ f.registry.watched = e.registry.watched ++ started

theorem extends_of_eq (hkinds : f.kinds = e.kinds)
    (hwatched : f.registry.watched = e.registry.watched) : e.Extends f :=
  ⟨[], List.nodup_nil, nofun, by rw [hkinds, List.append_nil], by rw [hwatched, List.append_nil]⟩

theorem Extends.refl (e : Engine) : e.Extends e :=
  extends_of_eq rfl rfl

theorem Extends.trans (h : e.Extends f) (h' : f.Extends g) : e.Extends g := by
  obtain ⟨first, hnodup, hnew, hkinds, hwatched⟩ := h
  obtain ⟨second, hnodup', hnew', hkinds', hwatched'⟩ := h'
  refine ⟨first ++ second, ?_, ?_, ?_, ?_⟩
  · refine List.nodup_append.2 ⟨hnodup, hnodup', ?_⟩
    rintro kind hfirst _ hsecond rfl
    exact hnew' kind hsecond (hwatched ▸ List.mem_append_right _ hfirst)
  · intro kind hkind
    rcases List.mem_append.1 hkind with hfirst | hsecond
    · exact hnew kind hfirst
    · intro hmem
      exact hnew' kind hsecond (hwatched ▸ List.mem_append_left _ hmem)
  · rw [hkinds', hkinds, List.append_assoc]
  · rw [hwatched', hwatched, List.append_assoc]

/-- What was watched stays watched. -/
theorem Extends.isWatched (h : e.Extends f) (hkind : e.registry.isWatched kind = true) :
    f.registry.isWatched kind = true := by
  obtain ⟨started, -, -, -, hwatched⟩ := h
  unfold Registry.isWatched at hkind ⊢
  rw [hwatched]
  exact decide_eq_true (List.mem_append_left _ (of_decide_eq_true hkind))

/-- The kinds that are watched are those that are followed, each of them once. -/
structure Subscribed (e : Engine) : Prop where
  watched_eq : e.registry.watched = e.kinds
  nodup : e.kinds.Nodup

theorem Subscribed.of_extends (h : e.Subscribed) (hextends : e.Extends f) : f.Subscribed := by
  obtain ⟨started, hnodup, hnew, hkinds, hwatched⟩ := hextends
  refine ⟨by rw [hwatched, hkinds, h.watched_eq], ?_⟩
  rw [hkinds]
  refine List.nodup_append.2 ⟨h.nodup, hnodup, ?_⟩
  rintro kind hkind _ hstarted rfl
  exact hnew kind hstarted (h.watched_eq ▸ hkind)

theorem Subscribed.isWatched_iff (h : e.Subscribed) (kind : WorkloadKind) :
    e.registry.isWatched kind = true ↔ kind ∈ e.kinds := by
  rw [← h.watched_eq]
  exact decide_eq_true_iff

/-! ## What is spared -/

/-- An engine that has become another one, in which some finished migrations are gone and one kind
may be followed that was not watched; everything else is as before. -/
structure Spares (gone : List MigrationId) (e f : Engine) : Prop where
  owners_eq : f.registry.owners = e.registry.owners
  queue_eq : f.queue = e.queue
  workers_eq : f.workers = e.workers
  stop_eq : f.stop = e.stop
  retryLimit_eq : f.retryLimit = e.retryLimit
  known : ∀ id m, f.registry.get? id = some m → e.registry.get? id = some m
  executing : ∀ id m, e.registry.get? id = some m → m.isTerminal = false →
    f.registry.get? id = some m
  evicted : ∀ id m, e.registry.get? id = some m → f.registry.get? id = none → id ∈ gone
  started : ∃ started : List Subscription, started.length ≤ 1 ∧
    (∀ b ∈ started, b.kind ∉ e.registry.watched) ∧
    f.subscriptions = e.subscriptions ++ started ∧
    f.registry.watched = e.registry.watched ++ started.map (·.kind)

theorem Spares.refl (gone : List MigrationId) (e : Engine) : Spares gone e e where
  owners_eq := rfl
  queue_eq := rfl
  workers_eq := rfl
  stop_eq := rfl
  retryLimit_eq := rfl
  known := fun _ _ h => h
  executing := fun _ _ h _ => h
  evicted := fun _ _ h h' => by
    rw [h] at h'
    cases h'
  started := ⟨[], Nat.zero_le 1, nofun, (List.append_nil _).symm, (List.append_nil _).symm⟩

theorem Spares.get?_eq (h : Spares [] e f) (id : MigrationId) :
    f.registry.get? id = e.registry.get? id := by
  cases hf : f.registry.get? id with
  | some m => exact (h.known id m hf).symm
  | none =>
    cases he : e.registry.get? id with
    | none => rfl
    | some m => cases h.evicted id m he hf

/-- Whatever is spared by what follows an eviction is spared by both. -/
theorem Spares.of_prune (h : e.registry.Identified) {policy : Retention}
    (hspares : Spares [] { e with registry := (e.registry.prune policy now).2 } f) :
    Spares (e.registry.evicted policy now) e f where
  owners_eq := hspares.owners_eq
  queue_eq := hspares.queue_eq
  workers_eq := hspares.workers_eq
  stop_eq := hspares.stop_eq
  retryLimit_eq := hspares.retryLimit_eq
  known := fun id m hm => Registry.get?_of_get?_prune (hspares.known id m hm)
  executing := fun id m hm hexecuting =>
    hspares.executing id m (h.get?_prune hm hexecuting policy now) hexecuting
  evicted := fun id m hm hgone => by
    by_contra hkept
    have hprune : (e.registry.prune policy now).2.get? id = some m := by
      rw [Registry.get?_prune, if_neg hkept, hm]
    cases hspares.evicted id m hprune hgone
  started := hspares.started

/-- An engine that has become another one, in which a further migration is known and both its kinds
are watched. -/
structure Enrolled (t : Migration) (e f : Engine) : Prop where
  get?_eq : ∀ id, f.registry.get? id = if id = t.id then some t else e.registry.get? id
  watched_src : f.registry.isWatched t.pair.srcKind = true
  watched_dst : f.registry.isWatched t.pair.dstKind = true

theorem Enrolled.known {t : Migration} (h : Enrolled t e f) : f.registry.get? t.id = some t :=
  (h.get?_eq t.id).trans (if_pos rfl)

/-! ## Activities -/

/-- What an engine does on its own is not to follow further kinds. -/
theorem extends_perform {a : Activity} (h : e.perform client now a s = some (f, t)) :
    e.Extends f := by
  cases a with
  | deliver index =>
    obtain ⟨f', hdeliver, heq⟩ := Option.map_eq_some_iff.1 h
    cases heq
    obtain ⟨b, c, queue, hb, hstep, rfl⟩ := of_deliver hdeliver
    obtain ⟨hkind, -⟩ := Subscription.of_step? hstep
    refine extends_of_eq ?_ rfl
    obtain ⟨hindex, rfl⟩ := List.getElem?_eq_some_iff.1 hb
    unfold kinds
    rw [List.map_set, hkind, ← List.map_set, List.set_getElem_self]
  | process n =>
    obtain ⟨id, -, hresult⟩ := of_perform_process h
    have hverdict (v : Verdict) : e.Extends (e.afterVerdict now n id v) :=
      extends_of_eq rfl (e.registry.watched_record id now v)
    rw [processHeld_eq] at hresult
    split at hresult
    · cases hresult
      exact hverdict .unchanged
    · cases hresult
      exact hverdict _
  | wake n =>
    obtain ⟨-, hresult⟩ := of_perform_wake h
    cases hresult
    unfold afterWake afterHandout
    dsimp only
    split <;> exact extends_of_eq rfl rfl
  | expire =>
    obtain ⟨queue, -, heq⟩ := Option.map_eq_some_iff.1 h
    cases heq
    exact extends_of_eq rfl rfl

end Engine

namespace Migrator

open Engine (Enrolled Extends Spares)

variable {client : Client σ} {m n : Migrator} {e f : Engine} {s t : σ} {now : Nat}
  {id : MigrationId} {src dst : ResourceRef} {request : Request} {kind : WorkloadKind}

/-! ## Watching -/

/-- All that can come of watching a kind: it was watched before, the platform refuses, or the kind
is followed from now on. -/
theorem watch_cases (client : Client σ) (kind : WorkloadKind) (e : Engine) (s : σ) :
    (e.registry.isWatched kind = true ∧ watch client kind e s = (.ok (), e, s)) ∨
    (∃ err, watch client kind e s = (.error err, e, (client.watch kind s).2)) ∨
    (e.registry.isWatched kind = false ∧ ∃ receiver, watch client kind e s =
      (.ok (), { e with
        subscriptions := e.subscriptions ++ [.start kind receiver]
        registry := { e.registry with watched := e.registry.watched ++ [kind] } },
        (client.watch kind s).2)) := by
  unfold watch Engine.subscribe
  cases hkind : e.registry.isWatched kind with
  | true => exact .inl ⟨rfl, rfl⟩
  | false =>
    rcases client.watch kind s with ⟨err | receiver, s'⟩
    · exact .inr (.inl ⟨err, rfl⟩)
    · refine .inr (.inr ⟨rfl, receiver, ?_⟩)
      have hmark : e.registry.markWatched kind =
          { e.registry with watched := e.registry.watched ++ [kind] } := by
        unfold Registry.markWatched
        rw [if_neg (of_decide_eq_false hkind)]
      simp [hmark]

/-- To watch a kind spares everything, follows that kind at most, and only looks at the platform. -/
theorem of_watch {answer : Except PlatformError Unit} (h : watch client kind e s = (answer, f, t)) :
    Spares [] e f ∧ e.Extends f ∧ client.Leaves s t ∧
      (answer = .ok () → f.registry.isWatched kind = true) ∧
      (answer ≠ .ok () → f = e) := by
  rcases watch_cases client kind e s with
    ⟨hkind, hwatch⟩ | ⟨err, hwatch⟩ | ⟨hkind, receiver, hwatch⟩
  · rw [hwatch] at h
    cases h
    exact ⟨.refl [] e, .refl e, .refl client s, fun _ => hkind, fun _ => rfl⟩
  · rw [hwatch] at h
    cases h
    exact ⟨.refl [] e, .refl e, .watch client kind s, nofun, fun _ => rfl⟩
  · rw [hwatch] at h
    cases h
    have hnew : kind ∉ e.registry.watched := of_decide_eq_false hkind
    refine ⟨{ Spares.refl [] e with started := ⟨[.start kind receiver], le_rfl, ?_, rfl, rfl⟩ },
      ⟨[kind], List.nodup_singleton kind, ?_, ?_, rfl⟩, .watch client kind s, fun _ => ?_, nofun⟩
    · intro b hb
      rw [List.mem_singleton.1 hb]
      exact hnew
    · intro other hother
      rw [List.mem_singleton.1 hother]
      exact hnew
    · unfold Engine.kinds
      rw [List.map_append]
      rfl
    · exact decide_eq_true (List.mem_append_right _ (List.mem_singleton_self kind))

/-- To watch both kinds of a pair follows what is missing. If it fails, one kind is followed more at
most. -/
theorem of_watchPair {pair : Pair} {answer : Except PlatformError Unit}
    (h : watchPair client pair e s = (answer, f, t)) :
    e.Extends f ∧ client.Leaves s t ∧ (∀ id, f.registry.get? id = e.registry.get? id) ∧
      (answer ≠ .ok () → Spares [] e f) ∧
      (answer = .ok () → f.registry.isWatched pair.srcKind = true ∧
        f.registry.isWatched pair.dstKind = true) := by
  unfold watchPair at h
  rcases hsrc : watch client pair.srcKind e s with ⟨err | done, e', s'⟩
  · obtain ⟨hspares, hextends, hleaves, -⟩ := of_watch hsrc
    rw [hsrc] at h
    cases h
    exact ⟨hextends, hleaves, hspares.get?_eq, fun _ => hspares, nofun⟩
  · obtain ⟨hspares, hextends, hleaves, hwatched, -⟩ := of_watch hsrc
    rw [hsrc] at h
    obtain ⟨hspares', hextends', hleaves', hwatched', hrefused⟩ := of_watch h
    refine ⟨hextends.trans hextends', hleaves.trans hleaves', fun id => ?_, fun hanswer => ?_,
      fun hanswer => ?_⟩
    · rw [hspares'.get?_eq, hspares.get?_eq]
    · rw [hrefused hanswer]
      exact hspares
    · exact ⟨hextends'.isWatched (hwatched rfl), hwatched' hanswer⟩

/-! ## Claims -/

/-- A claim that is accepted has its migration enrolled; one that is refused spares everything. -/
theorem of_claim {t : Migration} {u : σ} {answer : Except MigrationError Snapshot}
    (h : claim client t e s = (answer, f, u)) :
    e.Extends f ∧ client.Leaves s u ∧ (∀ err, answer = .error err → Spares [] e f) ∧
      ∀ snapshot, answer = .ok snapshot → snapshot = t.snapshot ∧ Enrolled t e f := by
  unfold claim at h
  split at h
  · cases h
    exact ⟨.refl e, .refl client s, fun _ _ => .refl [] e, nofun⟩
  · rcases hwatch : watchPair client t.pair e s with ⟨err | done, e', s'⟩
    · obtain ⟨hextends, hleaves, -, hspares, -⟩ := of_watchPair hwatch
      rw [hwatch] at h
      cases h
      exact ⟨hextends, hleaves, fun _ _ => hspares nofun, nofun⟩
    · obtain ⟨hextends, hleaves, hget, -, hwatched⟩ := of_watchPair hwatch
      rw [hwatch] at h
      cases h
      have henroll : e'.Extends (enroll t e') := Engine.extends_of_eq rfl rfl
      obtain ⟨hsrc, hdst⟩ := hwatched rfl
      refine ⟨hextends.trans henroll, hleaves, nofun, fun snapshot hanswer => ?_⟩
      cases hanswer
      exact ⟨rfl, fun id => (e'.registry.get?_register t id).trans (hget id ▸ rfl), hsrc, hdst⟩

/-- What a source declares has its say in the goal. -/
theorem of_appraise {goal : Goal} {baseline : Generations}
    (h : appraise client src dst request s = (.ok (goal, baseline), t)) :
    ∃ source, (client.get src s).1 = .ok source ∧ request.resolve source.declared = .ok goal := by
  unfold appraise at h
  rcases hsrc : client.get src s with ⟨err | source, s'⟩
  · rw [hsrc] at h
    cases h
  · rw [hsrc] at h
    dsimp only at h
    rcases hdst : client.get dst s' with ⟨err | destination, s''⟩
    · rw [hdst] at h
      cases h
    · rw [hdst] at h
      dsimp only at h
      cases hresolve : request.resolve source.declared with
      | error fault =>
        rw [hresolve] at h
        cases h
      | ok goal' =>
        rw [hresolve] at h
        cases h
        exact ⟨source, rfl, hresolve⟩

theorem leaves_appraise (client : Client σ) (src dst : ResourceRef) (request : Request) (s : σ) :
    client.Leaves s (appraise client src dst request s).2 := by
  have hsrc := Client.Leaves.get client src s
  unfold appraise
  rcases hget : client.get src s with ⟨err | source, s'⟩
  · rw [hget] at hsrc
    exact hsrc
  · rw [hget] at hsrc
    have hdst := Client.Leaves.get client dst s'
    dsimp only
    rcases hget' : client.get dst s' with ⟨err | destination, s''⟩
    · rw [hget'] at hdst
      exact hsrc.trans hdst
    · rw [hget'] at hdst
      dsimp only
      cases request.resolve source.declared <;> exact hsrc.trans hdst

/-- A submission under a surge bound that is accepted has a migration enrolled that starts now, with
the goal that the request sets for what the source declares; one that is refused spares everything.
-/
theorem of_submitIncremental {pair : Pair} {answer : Except MigrationError Snapshot}
    (h : submitIncremental client now id pair src dst request e s = (answer, f, t)) :
    e.Extends f ∧ client.Leaves s t ∧ (∀ err, answer = .error err → Spares [] e f) ∧
      ∀ snapshot, answer = .ok snapshot → ∃ source goal baseline,
        (client.get src s).1 = .ok source ∧ request.resolve source.declared = .ok goal ∧
        snapshot = (Migration.start id src dst pair goal baseline now).snapshot ∧
        Enrolled (.start id src dst pair goal baseline now) e f := by
  have hleaves := leaves_appraise client src dst request s
  unfold submitIncremental at h
  rcases happraise : appraise client src dst request s with ⟨err | ⟨goal, baseline⟩, s'⟩
  · rw [happraise] at h hleaves
    cases h
    exact ⟨.refl e, hleaves, fun _ _ => .refl [] e, nofun⟩
  · rw [happraise] at h hleaves
    obtain ⟨source, hsource, hresolve⟩ := of_appraise happraise
    obtain ⟨hextends, hleaves', hrefused, haccepted⟩ := of_claim h
    refine ⟨hextends, hleaves.trans hleaves', hrefused, fun snapshot hanswer => ?_⟩
    exact ⟨source, goal, baseline, hsource, hresolve, haccepted snapshot hanswer⟩

/-! ## Submissions -/

/-- What becomes of the submission of a pair that is migrated step by step: if it is accepted, a
migration is enrolled beside those that were not evicted; if it is refused, everything is spared but
finished migrations. -/
theorem of_submit (hidentified : m.engine.registry.Identified)
    (hpair : ∀ pair, Pair.ofRefs? src dst = some pair → pair.strategy = .boundedSurge)
    {answer : Except MigrationError Snapshot}
    (h : m.submit client now id src dst request s = (answer, n, t)) :
    n.settings = m.settings ∧ client.Leaves s t ∧
      (∀ err, answer = .error err →
        Spares (m.engine.registry.evicted m.settings.retention now) m.engine n.engine) ∧
      ∀ snapshot, answer = .ok snapshot → ∃ pair source goal baseline,
        Pair.ofRefs? src dst = some pair ∧ (client.get src s).1 = .ok source ∧
        request.resolve source.declared = .ok goal ∧
        snapshot = (Migration.start id src dst pair goal baseline now).snapshot ∧
        Enrolled (.start id src dst pair goal baseline now) (m.prune now).engine n.engine := by
  unfold submit at h
  split at h
  · cases h
    exact ⟨rfl, .refl client s, fun _ _ => .refl _ _, nofun⟩
  have hprune : Spares (m.engine.registry.evicted m.settings.retention now) m.engine
      (m.prune now).engine :=
    Spares.of_prune hidentified (.refl [] _)
  dsimp only at h
  split at h
  · cases h
    exact ⟨rfl, .refl client s, fun _ _ => hprune, nofun⟩
  · cases h
    exact ⟨rfl, .refl client s, fun _ _ => hprune, nofun⟩
  · next pair _ hrefs =>
    unfold submitPair at h
    rw [hpair pair hrefs] at h
    dsimp only at h
    rcases hsubmit :
      submitIncremental client now id pair src dst request (m.prune now).engine s with ⟨_, f, u⟩
    rw [hsubmit] at h
    cases h
    obtain ⟨-, hleaves, hrefused, haccepted⟩ := of_submitIncremental hsubmit
    refine ⟨rfl, hleaves, fun err herr => .of_prune hidentified (hrefused err herr),
      fun snapshot hanswer => ?_⟩
    obtain ⟨source, goal, baseline, hstarted⟩ := haccepted snapshot hanswer
    exact ⟨pair, source, goal, baseline, hrefs, hstarted⟩

theorem extends_submit (client : Client σ) (now : Nat) (id : MigrationId) (src dst : ResourceRef)
    (request : Request) (m : Migrator) (s : σ) :
    m.engine.Extends (m.submit client now id src dst request s).2.1.engine := by
  unfold submit
  split
  · exact .refl _
  dsimp only
  split
  · exact Engine.extends_of_eq rfl rfl
  · exact Engine.extends_of_eq rfl rfl
  · next pair _ _ =>
    unfold submitPair
    cases pair.strategy with
    | boundedSurge =>
      have hprune : m.engine.Extends (m.prune now).engine := Engine.extends_of_eq rfl rfl
      exact hprune.trans (of_submitIncremental rfl).1
    | oneShot =>
      refine Engine.extends_of_eq rfl ?_
      dsimp only
      unfold OneShot.migrate
      split
      · rfl
      · split <;> rfl

/-! ## Runs -/

/-- Whatever a migrator does, it follows further kinds at most. -/
theorem Step.extends (h : m.Step client n) : m.engine.Extends n.engine := by
  cases h with
  | submit now id src dst request s hnew => exact extends_submit client now id src dst request m s
  | claim t s hexecuting hpair hnew => exact (of_claim rfl).1
  | complete t hterminal hnew => exact Engine.extends_of_eq rfl rfl
  | work now a s s' e hperform => exact Engine.extends_perform hperform
  | pass now id s =>
    exact Engine.extends_of_eq rfl
      (m.engine.registry.watched_reconcile client m.engine.retryLimit now id s)
  | late now id v => exact Engine.extends_of_eq rfl (m.engine.registry.watched_record id now v)
  | finish id ending =>
    exact Engine.extends_of_eq rfl (m.engine.registry.watched_finish id ending)
  | prune policy now => exact Engine.extends_of_eq rfl rfl
  | stop => exact Engine.extends_of_eq rfl rfl
  | dismiss =>
    refine Engine.extends_of_eq ?_ rfl
    show (m.engine.subscriptions.map ({ · with held := false })).map Subscription.kind = _
    rw [List.map_map]
    rfl

theorem extends_of_steps (h : Relation.ReflTransGen (Step client) m n) :
    m.engine.Extends n.engine := by
  induction h with
  | refl => exact .refl _
  | tail _ hstep ih => exact ih.trans hstep.extends

theorem Reachable.subscribed {settings : Settings} (h : Reachable client settings m) :
    m.engine.Subscribed := by
  have hstart : (start settings).engine.Subscribed := ⟨rfl, List.nodup_nil⟩
  exact hstart.of_extends (extends_of_steps h)

/-- In every migrator that steps lead to: a submission that is refused, of references that do not
name a pair that is migrated in one shot, and a claim that is refused alone, spare everything but
finished migrations, follow one missing kind at most, and only look at the platform. The kinds that
are watched are those that are followed, each of them once, and it stays so in whatever the migrator
becomes. After a submission or a claim that is accepted, both kinds of the migration are watched for
good. -/
theorem refused_submission {settings : Settings} (h : Reachable client settings m) :
    (∀ now id src dst request s err n u,
      (∀ pair, Pair.ofRefs? src dst = some pair → pair.strategy = .boundedSurge) →
      m.submit client now id src dst request s = (.error err, n, u) →
      n.settings = m.settings ∧ client.Leaves s u ∧
        Spares (m.engine.registry.evicted m.settings.retention now) m.engine n.engine) ∧
    (∀ t s err f u, claim client t m.engine s = (.error err, f, u) →
      client.Leaves s u ∧ Spares [] m.engine f) ∧
    m.engine.kinds.Nodup ∧
    (∀ kind, m.engine.registry.isWatched kind = true ↔ kind ∈ m.engine.kinds) ∧
    (∀ n, Relation.ReflTransGen (Step client) m n →
      m.engine.kinds <+: n.engine.kinds ∧ n.engine.kinds.Nodup) ∧
    (∀ now id src dst request s snapshot n u,
      (∀ pair, Pair.ofRefs? src dst = some pair → pair.strategy = .boundedSurge) →
      m.submit client now id src dst request s = (.ok snapshot, n, u) →
      ∃ t, n.engine.registry.get? id = some t ∧ t.src = src ∧ t.dst = dst ∧
        t.isTerminal = false ∧ Pair.ofRefs? src dst = some t.pair ∧
        ∀ l, Relation.ReflTransGen (Step client) n l →
          l.engine.registry.isWatched t.pair.srcKind = true ∧
          l.engine.registry.isWatched t.pair.dstKind = true) ∧
    ∀ t s snapshot f u, claim client t m.engine s = (.ok snapshot, f, u) →
      f.registry.get? t.id = some t ∧
      ∀ l, Relation.ReflTransGen (Step client) { m with engine := f } l →
        l.engine.registry.isWatched t.pair.srcKind = true ∧
        l.engine.registry.isWatched t.pair.dstKind = true := by
  have hidentified := h.exclusive.identified
  have hsubscribed := h.subscribed
  refine ⟨?_, ?_, hsubscribed.nodup, hsubscribed.isWatched_iff, ?_, ?_, ?_⟩
  · intro now id src dst request s err n u hpair hsubmit
    obtain ⟨hsettings, hleaves, hrefused, -⟩ := of_submit hidentified hpair hsubmit
    exact ⟨hsettings, hleaves, hrefused err rfl⟩
  · intro t s err f u hclaim
    obtain ⟨-, hleaves, hrefused, -⟩ := of_claim hclaim
    exact ⟨hleaves, hrefused err rfl⟩
  · intro n hsteps
    have hextends := extends_of_steps hsteps
    refine ⟨?_, (hsubscribed.of_extends hextends).nodup⟩
    obtain ⟨started, -, -, hkinds, -⟩ := hextends
    exact hkinds ▸ List.prefix_append _ _
  · intro now id src dst request s snapshot n u hpair hsubmit
    obtain ⟨-, -, -, haccepted⟩ := of_submit hidentified hpair hsubmit
    obtain ⟨pair, source, goal, baseline, hrefs, -, -, -, henrolled⟩ := haccepted snapshot rfl
    refine ⟨_, henrolled.known, rfl, rfl, rfl, hrefs, fun l hsteps => ?_⟩
    have hextends := extends_of_steps hsteps
    exact ⟨hextends.isWatched henrolled.watched_src, hextends.isWatched henrolled.watched_dst⟩
  · intro t s snapshot f u hclaim
    obtain ⟨-, -, -, haccepted⟩ := of_claim hclaim
    obtain ⟨-, henrolled⟩ := haccepted snapshot rfl
    refine ⟨henrolled.known, fun l hsteps => ?_⟩
    have hextends := extends_of_steps hsteps
    exact ⟨hextends.isWatched henrolled.watched_src, hextends.isWatched henrolled.watched_dst⟩

/-- The platform refuses to have clone sets watched. A first submission fails after it has followed
deployments; a second one, after the platform has come to its senses, follows clone sets alone. -/
theorem refused_submission_second_kind :
    let web := (Workload.named .deployment "default" "web").withReplicas (some 3)
    let webCs := (Workload.named .cloneSet "default" "web-cs").withReplicas (some 0)
    let p := (((Platform.empty 4).put web).2.put webCs).2
    let client : Client (Bool × Platform) := {
      get := fun r s => (s.2.get r, s)
      create := fun w s => ((s.2.create w).1, s.1, (s.2.create w).2)
      update := fun w s => ((s.2.update w).1, s.1, (s.2.update w).2)
      delete := fun r propagation s =>
        ((s.2.delete r propagation).1, s.1, (s.2.delete r propagation).2)
      watch := fun kind s =>
        if s.1 ∨ kind = .deployment then (.ok (s.2.watch kind), s)
        else (.error (.unavailable "no stream"), s)
      receive := fun r s => s.2.receive r }
    let request : Request := ⟨some 3, some 1, none, false⟩
    let a := start .default
    let first := a.submit client 0 ⟨1⟩ web.ref webCs.ref request (false, p)
    let b := first.2.1
    let second := b.submit client 1 ⟨2⟩ web.ref webCs.ref request (true, p)
    let c := second.2.1
    (∃ err, first.1 = .error err) ∧ Spares [] a.engine b.engine ∧ first.2.2.2 = p ∧
      b.engine.kinds = [.deployment] ∧ (∃ snapshot, second.1 = .ok snapshot) ∧
      c.engine.kinds = [.deployment, .cloneSet] ∧
      ∀ l, Relation.ReflTransGen (Step client) c l →
        l.engine.registry.isWatched .cloneSet = true := by
  intro web webCs p client request a first b second c
  have hpair : ∀ pair, Pair.ofRefs? web.ref webCs.ref = some pair →
      pair.strategy = .boundedSurge := by decide +kernel
  have ha : Reachable client .default a := .refl
  have hb : Reachable client .default b := .single (.submit 0 ⟨1⟩ web.ref webCs.ref request _ rfl)
  have hfirst : first.1 = .error (.platform (.unavailable "no stream")) := by decide +kernel
  have hevicted : a.engine.registry.evicted a.settings.retention 0 = [] := by decide +kernel
  have hkinds : b.engine.kinds = [.deployment] := by decide +kernel
  have hkinds' : c.engine.kinds = [.deployment, .cloneSet] := by decide +kernel
  have hsecond : second.1 = .ok ⟨⟨2⟩, .executing, "", .zero⟩ := by decide +kernel
  have hget : ∀ r s, (client.get r s).2.2 = s.2 := fun _ _ => rfl
  have hwatch : ∀ kind s, (client.watch kind s).2.2 = s.2 := by
    intro kind s
    show (if s.1 = true ∨ kind = .deployment then _ else _ : _ × Bool × Platform).2.2 = s.2
    split <;> rfl
  obtain ⟨hrefused, -⟩ := refused_submission ha
  obtain ⟨-, hleaves, hspares⟩ :=
    hrefused 0 ⟨1⟩ _ _ request _ _ b first.2.2 hpair (Prod.ext hfirst rfl)
  obtain ⟨-, -, -, -, -, haccepted, -⟩ := refused_submission hb
  obtain ⟨t, -, -, -, -, hrefs, hwatched⟩ :=
    haccepted 1 ⟨2⟩ _ _ request _ _ c second.2.2 hpair (Prod.ext hsecond rfl)
  have ht : t.pair = .deploymentToCloneSet := Option.some.inj (hrefs.symm.trans rfl)
  rw [ht] at hwatched
  exact ⟨⟨_, hfirst⟩, hevicted ▸ hspares, hleaves.view_eq (·.2) hget hwatch, hkinds,
    ⟨_, hsecond⟩, hkinds', fun l hl => (hwatched l hl).2⟩

end Migrator

end Handover
