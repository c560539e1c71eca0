import Handover.Proofs.Ownership
import Handover.Proofs.Platform.Reading

/-!
# Nothing is lost in one shot

A client is `Unreliable` if each call is answered as the platform answers it, or fails with whatever
error and has no effect. A transfer through such a client has one of three outcomes
(`OneShot.Outcome`): nothing has changed, the destination is created and the source could not be
deleted, or the destination has taken the place of the source. So a workload that was there is never
lost (`OneShot.workload_never_lost`).
-/

namespace Handover

/-- A reference is made of the kind it names, its namespace and its name. -/
theorem ResourceRef.of_kind? {r : ResourceRef} {kind : WorkloadKind} (h : r.kind? = some kind) :
    .of kind r.ns r.name = r := by
  have hmeta : kind.apiVersion = r.apiVersion ∧ kind.name = r.kind := by
    simpa using List.find?_some h
  unfold ResourceRef.of
  rw [hmeta.1, hmeta.2]

variable {σ : Type}

namespace Client

/-- A call of a client that sees a platform is answered as the platform does it, or it fails with
some error and has no effect. -/
def Faithful {α : Type} (view : σ → Platform) (s : σ) (answer : Except PlatformError α × σ)
    (genuine : Except PlatformError α × Platform) : Prop :=
  (answer.1 = genuine.1 ∧ view answer.2 = genuine.2) ∨
    ∃ e, answer.1 = .error e ∧ view answer.2 = view s

/-- Any call by which objects are read, created and deleted may fail. -/
structure Unreliable (client : Client σ) (view : σ → Platform) : Prop where
  get : ∀ r s, Faithful view s (client.get r s) ((view s).get r, view s)
  create : ∀ w s, Faithful view s (client.create w s) ((view s).create w)
  delete : ∀ r propagation s,
    Faithful view s (client.delete r propagation s) ((view s).delete r propagation)

namespace Unreliable

variable {client : Client σ} {view : σ → Platform} {s : σ} {r : ResourceRef} {w : Workload}

theorem view_get (h : client.Unreliable view) (r : ResourceRef) (s : σ) :
    view (client.get r s).2 = view s := by
  rcases h.get r s with ⟨-, hview⟩ | ⟨e, -, hview⟩
  · exact hview
  · exact hview

/-- An object that is read is there. -/
theorem object?_of_get (h : client.Unreliable view) (hget : (client.get r s).1 = .ok w) :
    (view s).object? r = some w := by
  rcases h.get r s with ⟨hanswer, -⟩ | ⟨e, hanswer, -⟩
  · exact Platform.object?_of_get (hanswer.symm.trans hget)
  · rw [hanswer] at hget
    cases hget

/-- Creating an object fails without an effect, or the object was not there and is stored. -/
theorem create_cases (h : client.Unreliable view) (w : Workload) (s : σ) :
    (∃ e, (client.create w s).1 = .error e ∧ view (client.create w s).2 = view s) ∨
      (view s).object? w.ref = none ∧
        ∃ created : Workload, created.ref = w.ref ∧ (client.create w s).1 = .ok created ∧
          view (client.create w s).2 = (view s).store .added created := by
  rcases h.create w s with ⟨hanswer, hview⟩ | hfails
  · rw [hanswer, hview]
    unfold Platform.create
    split
    · exact .inl ⟨_, rfl, rfl⟩
    split
    · exact .inl ⟨_, rfl, rfl⟩
    · next hfree =>
      have hnone : (view s).object? w.ref = none := Option.not_isSome_iff_eq_none.1 hfree
      exact .inr ⟨hnone, (w.withStatus {}).stamped 1 (view s).nextVersion, rfl, rfl, rfl⟩
  · exact .inl hfails

/-- Deleting an object that is there fails without an effect, or the object is removed. -/
theorem delete_cases (h : client.Unreliable view) (hw : (view s).object? r = some w)
    (propagation : Propagation) :
    (∃ e, (client.delete r propagation s).1 = .error e ∧
        view (client.delete r propagation s).2 = view s) ∨
      (client.delete r propagation s).1 = .ok () ∧
        view (client.delete r propagation s).2 = (view s).remove r w propagation := by
  rcases h.delete r propagation s with ⟨hanswer, hview⟩ | hfails
  · rw [hanswer, hview]
    unfold Platform.delete
    rw [hw]
    exact .inr ⟨rfl, rfl⟩
  · exact .inl hfails

end Unreliable

end Client

namespace OneShot

variable {client : Client σ} {view : σ → Platform} {p : Platform} {s : σ} {src dst : ResourceRef}
  {pair : Pair} {source w : Workload}

/-! ## Reading the source -/

theorem view_ensureAbsent (h : client.Unreliable view) (dst : ResourceRef) (s : σ) :
    view (ensureAbsent client dst s).2 = view s := by
  have hview := h.view_get dst s
  unfold ensureAbsent
  rcases hget : client.get dst s with ⟨e | w, s'⟩
  · rw [hget] at hview
    cases e <;> exact hview
  · rw [hget] at hview
    exact hview

/-- Reading a source changes nothing, and a source that is read is there. -/
theorem readSource_spec (h : client.Unreliable view) (src dst : ResourceRef) (s : σ) :
    view (readSource client src dst s).2 = view s ∧
      ∀ source, (readSource client src dst s).1 = .ok source →
        (view s).object? src = some source := by
  have hview := h.view_get src s
  unfold readSource
  rcases hget : client.get src s with ⟨e | source, s'⟩
  · rw [hget] at hview
    refine ⟨hview, ?_⟩
    intro source hsource
    cases hsource
  · rw [hget] at hview
    have habsent := (view_ensureAbsent h dst s').trans hview
    have hobject := h.object?_of_get (congrArg Prod.fst hget)
    dsimp only
    rcases hensure : ensureAbsent client dst s' with ⟨e | absent, s''⟩
    · rw [hensure] at habsent
      refine ⟨habsent, ?_⟩
      intro source' hsource
      cases hsource
    · rw [hensure] at habsent
      refine ⟨habsent, ?_⟩
      intro source' hsource
      rw [← Except.ok.inj hsource]
      exact hobject

/-! ## Replacing the source -/

/-- A destination has the reference it is made for. -/
theorem ref_destination (hpair : Pair.ofRefs? src dst = some pair) (source : Workload)
    (copyReplicas : Bool) : (destination pair source dst copyReplicas).ref = dst := by
  have hkind := (Pair.ofRefs?_eq_some_iff.1 hpair).2
  have href : (moveTo dst (source.convert pair dst.name)).ref =
      .of pair.dstKind dst.ns dst.name := by
    cases pair <;> rfl
  unfold destination
  dsimp only
  split
  · exact href.trans (ResourceRef.of_kind? hkind)
  · exact href.trans (ResourceRef.of_kind? hkind)

/-- What can come of a transfer on a platform: it fails and nothing has changed; the destination is
created and deleting the source fails; or the destination is created and the source deleted. -/
inductive Outcome (client : Client σ) (view : σ → Platform) (src dst : ResourceRef)
    (p : Platform) : Except MigrationError Workload × σ → Prop
  | unchanged (e : MigrationError) (s : σ) (h : view s = p) :
      Outcome client view src dst p (.error e, s)
  | undeleted (w : Workload) (t s : σ) (cause : PlatformError) (href : w.ref = dst)
      (hfree : p.object? dst = none) (ht : view t = p.store .added w)
      (hdelete : client.delete src .orphan t = (.error cause, s)) (h : view s = view t) :
      Outcome client view src dst p (.error (.platform cause), s)
  | replaced (source w : Workload) (s : σ) (href : w.ref = dst) (hfree : p.object? dst = none)
      (hsource : p.object? src = some source)
      (h : view s = (p.store .added w).remove src source .orphan) :
      Outcome client view src dst p (.ok w, s)

theorem outcome_replaceSource (h : client.Unreliable view)
    (hsource : (view s).object? src = some source) (href : w.ref = dst) (hne : src ≠ dst) :
    Outcome client view src dst (view s) (replaceSource client src w s) := by
  have hcases := h.create_cases w s
  unfold replaceSource createObject
  rcases hcreate : client.create w s with ⟨answer, t⟩
  rw [hcreate] at hcases
  dsimp only at hcases
  rcases hcases with ⟨e, rfl, hview⟩ | ⟨hfree, created, hcreated, rfl, hview⟩
  · exact .unchanged _ t hview
  rw [href] at hcreated hfree
  -- the source is still there, for the destination is another object
  have hstill : (view t).object? src = some source := by
    rw [hview, Platform.object?_store, hcreated, if_neg hne, hsource]
  have hcases' := h.delete_cases hstill .orphan
  dsimp only
  rcases hdelete : client.delete src .orphan t with ⟨answer', s'⟩
  rw [hdelete] at hcases'
  dsimp only at hcases'
  rcases hcases' with ⟨cause, rfl, hview'⟩ | ⟨rfl, hview'⟩
  · exact .undeleted created t s' cause hcreated hfree hview hdelete hview'
  · rw [hview] at hview'
    exact .replaced source created s' hcreated hfree hsource hview'

theorem outcome_transfer (h : client.Unreliable view) (hpair : Pair.ofRefs? src dst = some pair)
    (hstrategy : pair.strategy = .oneShot) (copyReplicas : Bool) (s : σ) :
    Outcome client view src dst (view s) (transfer client pair src dst copyReplicas s) := by
  obtain ⟨hview, hobject⟩ := readSource_spec h src dst s
  unfold transfer
  rcases hread : readSource client src dst s with ⟨e | source, t⟩
  · rw [hread] at hview
    exact .unchanged e t hview
  · rw [hread] at hview hobject
    have hsource : (view t).object? src = some source := by
      rw [hview]
      exact hobject source rfl
    have href := ref_destination hpair source copyReplicas
    have hne := Migrator.ne_of_ofRefs? hpair
    rw [hstrategy, ← hview]
    exact outcome_replaceSource h hsource href hne

/-! ## Migrating in one shot -/

/-- A migration in one shot answers and registers what an outcome says; one whose objects are
claimed has not changed anything. -/
theorem exists_outcome_migrate (h : client.Unreliable view)
    (hpair : Pair.ofRefs? src dst = some pair) (hstrategy : pair.strategy = .oneShot)
    (copyReplicas : Bool) (id : MigrationId) (now : Nat) (g : Registry) (s : σ) :
    ∃ outcome, Outcome client view src dst (view s) outcome ∧
      migrate client pair src dst copyReplicas id now g s =
        match outcome with
        | (.error e, t) => (.error e, g, t)
        | (.ok w, t) =>
          let m := Migration.completed id src dst pair w.declared now
          (.ok m.snapshot, g.register m, t) := by
  unfold migrate
  cases ensureBothFree g src dst with
  | error e => exact ⟨(.error e, s), .unchanged e s rfl, rfl⟩
  | ok free =>
    refine ⟨_, outcome_transfer h hpair hstrategy copyReplicas s, ?_⟩
    rcases transfer client pair src dst copyReplicas s with ⟨e | w, t⟩ <;> rfl

/-- Whatever fails, a migration in one shot loses nothing. If it fails, the registry is as before,
no deletion is remembered and the source is what it was; the platform is as before, or the
destination, which was not there, has been created and the call that failed is the deletion of the
source. If it does not fail, the destination is there and the source is gone. So if the source was
there, one of the two is there in the end. -/
theorem workload_never_lost {client : Client σ} {view : σ → Platform}
    (hclient : client.Unreliable view) {pair : Pair} {src dst : ResourceRef}
    (hpair : Pair.ofRefs? src dst = some pair) (hstrategy : pair.strategy = .oneShot)
    (copyReplicas : Bool) (id : MigrationId) (now : Nat) (g : Registry) (s : σ) :
    let result := migrate client pair src dst copyReplicas id now g s
    let before := view s
    let after := view result.2.2
    (∀ e, result.1 = .error e →
      result.2.1 = g ∧ after.deletions = before.deletions ∧
        after.object? src = before.object? src ∧
        (after = before ∨
          ∃ w t cause, w.ref = dst ∧ before.object? dst = none ∧ after = before.store .added w ∧
            view t = after ∧ client.delete src .orphan t = (.error cause, result.2.2) ∧
            e = .platform cause)) ∧
      (∀ snapshot, result.1 = .ok snapshot →
        (∃ w, after.object? dst = some w) ∧ after.object? src = none) ∧
      (before.object? src ≠ none → after.object? src ≠ none ∨ after.object? dst ≠ none) := by
  intro result before after
  have hne := Migrator.ne_of_ofRefs? hpair
  obtain ⟨outcome, houtcome, hresult⟩ :=
    exists_outcome_migrate hclient hpair hstrategy copyReplicas id now g s
  cases houtcome with
  | unchanged e t hview =>
    have hresult : result = (.error e, g, t) := hresult
    have hafter : after = before := (congrArg (fun r => view r.2.2) hresult).trans hview
    refine ⟨?_, ?_, ?_⟩
    · intro e' he
      rw [hresult, hafter]
      exact ⟨rfl, rfl, rfl, .inl rfl⟩
    · intro snapshot hsnapshot
      rw [hresult] at hsnapshot
      cases hsnapshot
    · intro hsource
      rw [hafter]
      exact .inl hsource
  | undeleted w t t' cause href hfree ht hdelete hview =>
    have hresult : result = (.error (.platform cause), g, t') := hresult
    have hafter : after = before.store .added w :=
      (congrArg (fun r => view r.2.2) hresult).trans (hview.trans ht)
    -- only the destination has been stored
    have hsource : after.object? src = before.object? src := by
      rw [hafter, Platform.object?_store, href, if_neg hne]
    have hdeletions : after.deletions = before.deletions := by
      rw [hafter]
      rfl
    refine ⟨?_, ?_, ?_⟩
    · intro e' he
      rw [hresult] at he ⊢
      refine ⟨rfl, hdeletions, hsource, .inr ?_⟩
      exact ⟨w, t, cause, href, hfree, hafter, ht.trans hafter.symm, hdelete,
        (Except.error.inj he).symm⟩
    · intro snapshot hsnapshot
      rw [hresult] at hsnapshot
      cases hsnapshot
    · intro hthere
      rw [hsource]
      exact .inl hthere
  | replaced source w t href hfree hsource hview =>
    have hafter : after = (before.store .added w).remove src source .orphan :=
      (congrArg (fun r => view r.2.2) hresult).trans hview
    have hdst : after.object? dst = some w := by
      rw [hafter, Platform.object?_remove, if_neg hne.symm, Platform.object?_store, href,
        if_pos rfl]
    have hgone : after.object? src = none := by
      rw [hafter, Platform.object?_remove, if_pos rfl]
    refine ⟨?_, ?_, ?_⟩
    · intro e' he
      have hanswer := (congrArg Prod.fst hresult).symm.trans he
      cases hanswer
    · intro snapshot _
      exact ⟨⟨w, hdst⟩, hgone⟩
    · intro _
      rw [hdst]
      exact .inr (Option.some_ne_none w)

/-- A stateful set is migrated while no deletion gets through: the migration fails, nothing is
registered, and both objects are there. -/
theorem workload_never_lost_undeleted :
    let failing : Client Platform :=
      { Platform.client with delete := fun _ _ p => (.error (.unavailable "down"), p) }
    let pg := Workload.named .statefulSet "db" "pg"
    let dst : ResourceRef := .of .advancedStatefulSet "db" "pg-advanced"
    let p := ((Platform.empty 4).put pg).2
    let result := migrate failing .statefulSetToAdvanced pg.ref dst true ⟨7⟩ 10 Registry.empty p
    failing.Unreliable id ∧ result.1 = .error (.platform (.unavailable "down")) ∧
      result.2.1 = Registry.empty ∧ result.2.2.object? pg.ref = some (pg.stamped 1 1) ∧
      ∃ w, w.ref = dst ∧ result.2.2 = p.store .added w := by
  intro failing pg dst p result
  have hunreliable : failing.Unreliable id :=
    ⟨fun _ _ => .inl ⟨rfl, rfl⟩, fun _ _ => .inl ⟨rfl, rfl⟩, fun _ _ _ => .inr ⟨_, rfl, rfl⟩⟩
  have hpair : Pair.ofRefs? pg.ref dst = some .statefulSetToAdvanced := by decide
  have hfails : result.1 = .error (.platform (.unavailable "down")) := by decide +kernel
  obtain ⟨herror, -, -⟩ :=
    workload_never_lost hunreliable hpair rfl true ⟨7⟩ 10 Registry.empty p
  obtain ⟨hregistry, -, hsource, hunchanged | ⟨w, -, -, href, -, hcreated, -⟩⟩ := herror _ hfails
  · -- the destination has been created
    have hversion := congrArg Platform.nextVersion hunchanged
    have hnext : result.2.2.nextVersion = 3 := by decide +kernel
    cases hnext.symm.trans hversion
  · exact ⟨hunreliable, hfails, hregistry, hsource, w, href, hcreated⟩

end OneShot

end Handover
