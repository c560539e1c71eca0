import Handover.Proofs.Pass.Unhindered
import Handover.Proofs.Platform.Confined
import Handover.Proofs.Registry.Exclusive
import Mathlib.Logic.Function.Conjugate

/-!
# Independent migrations

Where no failure is awaited, what a pass does is decided by its two objects (`Migration.deed`), and
it is done to one of them. So a pass is confined to its two references
(`Migration.confined_pass`), and what it records can be recorded before or after what a pass over
another migration records (`Registry.record_comm`). Passes over migrations with different objects
may change places, and a pass may change places with an operation on an object that is none of its
two (`Registry.independent_migrations`).
-/

namespace Handover

/-! ## Tables -/

namespace Table

variable {κ ν : Type}

variable [DecidableEq κ]

theorem modify_comm (t : Table κ ν) {k l : κ} (hne : k ≠ l) (f g : ν → ν) :
    (t.modify k f).modify l g = (t.modify l g).modify k f := by
  apply ext_entries
  simp only [modify, mapValues, List.map_map]
  refine List.map_congr_left fun e _ => ?_
  by_cases hk : e.1 = k
  · have hl : e.1 ≠ l := fun hl => hne (hk.symm.trans hl)
    simp only [Function.comp_apply, if_pos hk, if_neg hl]
  · simp only [Function.comp_apply, if_neg hk]

theorem erase_comm (t : Table κ ν) (k l : κ) : (t.erase k).erase l = (t.erase l).erase k := by
  apply ext_entries
  exact List.filter_comm ..

end Table

/-! ## What passes record -/

namespace Registry

variable {g : Registry} {id other : MigrationId} {m : Migration} {now : Nat}

theorem modify_commute (hne : id ≠ other) (f f' : Migration → Migration) :
    Function.Commute (fun g : Registry => g.modify id f) (·.modify other f') := by
  intro g
  simp only [modify, Table.modify_comm g.migrations hne]

theorem release_eq (g : Registry) (id : MigrationId) (r : ResourceRef) :
    g.release id r =
      { g with owners := if g.ownerOf? r = some id then g.owners.erase r else g.owners } := by
  unfold release
  split <;> rfl

theorem modify_release_commute (id other : MigrationId) (f : Migration → Migration)
    (r : ResourceRef) :
    Function.Commute (fun g : Registry => g.modify id f) (·.release other r) := by
  intro g
  simp only [release_eq, modify, ownerOf?]
  rfl

theorem ownerOf?_release_of_ne (g : Registry) (id : MigrationId) {r s : ResourceRef}
    (hne : s ≠ r) : (g.release id r).ownerOf? s = g.ownerOf? s := by
  rw [ownerOf?_release, if_neg fun h => hne h.1]

theorem release_commute (id other : MigrationId) {r s : ResourceRef} (hne : r ≠ s) :
    Function.Commute (fun g : Registry => g.release id r) (·.release other s) := by
  intro g
  -- whether an object is released is decided by its own owner
  have hr := g.ownerOf?_release_of_ne other hne
  have hs := g.ownerOf?_release_of_ne id hne.symm
  show (g.release other s).release id r = (g.release id r).release other s
  rw [release_eq _ id r, hr, release_eq _ other s, release_eq _ other s, hs, release_eq _ id r]
  by_cases howner : g.ownerOf? r = some id
  · by_cases howner' : g.ownerOf? s = some other
    · simp only [if_pos howner, if_pos howner', Table.erase_comm g.owners s r]
    · simp only [if_pos howner, if_neg howner']
  · simp only [if_neg howner]

/-- What commutes with every change of a migration and with the release of its objects commutes with
what is recorded of it. -/
theorem commute_recording {step : Registry → Registry}
    (hmodify : ∀ f, Function.Commute step (·.modify id f))
    (hrelease : ∀ side, Function.Commute step (·.release id (m.refOf side))) (now : Nat)
    (v : Verdict) : Function.Commute step (recording id now v m) := by
  unfold recording
  split
  · exact hmodify _
  · next ending _ =>
    have hchanges := (hmodify (·.finish ending)).comp_right (hmodify v.applyTo)
    split
    · exact hmodify _
    · exact (hrelease .dst).comp_right ((hrelease .src).comp_right hchanges)

/-- What is recorded of two migrations with different objects can be recorded in either order. -/
theorem recording_commute {m' : Migration} (hne : id ≠ other)
    (hrefs : ∀ side side', m.refOf side ≠ m'.refOf side') (now : Nat) (v v' : Verdict) :
    Function.Commute (recording id now v m) (recording other now v' m') := by
  refine (commute_recording (fun f => ?_) (fun side => ?_) now v).symm
  · refine (commute_recording (fun f' => ?_) (fun side' => ?_) now v').symm
    · exact modify_commute hne f f'
    · exact modify_release_commute id other f _
  · refine (commute_recording (fun f' => ?_) (fun side' => ?_) now v').symm
    · exact (modify_release_commute other id f' _).symm
    · exact release_commute id other (hrefs side side')

/-- Verdicts on two migrations with different objects can be recorded in either order. -/
theorem record_comm {m' : Migration} (hne : id ≠ other) (hm : g.get? id = some m)
    (hm' : g.get? other = some m') (hrefs : ∀ side side', m.refOf side ≠ m'.refOf side')
    (now : Nat) (v v' : Verdict) :
    (g.record id now v).record other now v' = (g.record other now v').record id now v := by
  have hlater : (g.record id now v).get? other = some m' := by
    rw [get?_record, if_neg hne.symm, hm']
  have hlater' : (g.record other now v').get? id = some m := by
    rw [get?_record, if_neg hne, hm]
  rw [record_eq_recording hlater, record_eq_recording hlater', record_eq_recording hm,
    record_eq_recording hm']
  exact (recording_commute hne hrefs now v v' g).symm

end Registry

/-! ## What a pass does -/

/-- The verdict and the effect of an intent that nothing hinders. -/
def Intent.deed (src dst : Workload) : Intent → Verdict × Platform.Effect
  | settle v => (v, .nothing)
  | write side n =>
    (.landed side n (side.pick src dst).nextGeneration,
      .store .modified (((side.pick src dst).moved side n).stamped
        (side.pick src dst).nextGeneration 0))

namespace Migration

variable {m : Migration} {p : Platform} {now : Nat}

/-- The verdict and the effect of a pass that nothing hinders, given what it reads. -/
def deed (m : Migration) :
    Except PlatformError Workload → Except PlatformError Workload → Verdict × Platform.Effect
  | .error e, _ => (.failed (.platform e), .nothing)
  | .ok _, .error e => (.failed (.platform e), .nothing)
  | .ok src, .ok dst => (m.intent src dst).deed src dst

/-- An object that is read for a side is stored under the reference of that side. -/
theorem object?_pick (hp : p.Sound) {src dst : Workload} (hsrc : p.get m.src = .ok src)
    (hdst : p.get m.dst = .ok dst) (side : Side) :
    (side.pick src dst).ref = m.refOf side ∧
      p.object? (m.refOf side) = some (side.pick src dst) := by
  cases side with
  | src =>
    have hobject := Platform.object?_of_get hsrc
    exact ⟨hp.ref_eq _ _ hobject, hobject⟩
  | dst =>
    have hobject := Platform.object?_of_get hdst
    exact ⟨hp.ref_eq _ _ hobject, hobject⟩

/-- Where no failure is awaited, a pass over an open migration does its deed. -/
theorem pass_eq_deed (hp : p.Sound) (hfailures : p.failures = []) (hopen : m.isOpen now = true)
    (limit : Nat) :
    m.pass Platform.client limit now p =
      ((m.deed (p.get m.src) (p.get m.dst)).1, (m.deed (p.get m.src) (p.get m.dst)).2.run p) := by
  cases hsrc : p.get m.src with
  | error e =>
    rw [pass_of_isOpen hopen, readBoth_client, readBoth_reading, hsrc]
    rfl
  | ok src =>
    cases hdst : p.get m.dst with
    | error e =>
      rw [pass_of_isOpen hopen, readBoth_client, readBoth_reading, hsrc, hdst]
      rfl
    | ok dst =>
      rw [pass_client, pass_reading_of_ok hopen hsrc hdst]
      simp only [deed]
      cases hintent : m.intent src dst with
      | settle v => rfl
      | write side n =>
        have hpos : 0 < n := Side.pos_of_plan_eq (intent_eq_write_iff.1 hintent).2.1
        obtain ⟨href, hobject⟩ := object?_pick hp hsrc hdst side
        rw [← href] at hobject
        have hupdate : (Platform.clientReading p.get).update ((side.pick src dst).moved side n) p =
            (.ok _, _) := Platform.update_moved_of_failures_eq_nil hfailures hpos hobject
        dsimp only
        rw [move_eq, hupdate]
        rfl

theorem deed_at (hp : p.Sound) :
    ∃ r ∈ [m.src, m.dst], (m.deed (p.get m.src) (p.get m.dst)).2.At r (p.object? r) := by
  have hnothing : ∃ r ∈ [m.src, m.dst], Platform.Effect.nothing.At r (p.object? r) :=
    ⟨m.src, List.mem_cons_self, trivial⟩
  cases hsrc : p.get m.src with
  | error e => exact hnothing
  | ok src =>
    cases hdst : p.get m.dst with
    | error e => exact hnothing
    | ok dst =>
      simp only [deed]
      cases m.intent src dst with
      | settle v => exact hnothing
      | write side n =>
        obtain ⟨href, hobject⟩ := object?_pick hp hsrc hdst side
        refine ⟨m.refOf side, ?_, href, by simp, ?_⟩
        · cases side <;> simp [refOf, Side.pick]
        · rw [hobject]
          simp

/-- A pass is confined to the two objects of its migration. -/
theorem confined_pass (m : Migration) (limit now : Nat) :
    Platform.Confined [m.src, m.dst] (m.pass Platform.client limit now) := by
  intro p q hp hq hp_failures hq_failures hsame
  cases hopen : m.isOpen now with
  | false =>
    obtain ⟨v, -, -, hv⟩ := pass_of_not_isOpen hopen
    exact ⟨v, .nothing, ⟨m.src, List.mem_cons_self, trivial⟩, hv Platform.client limit p,
      hv Platform.client limit q⟩
  | true =>
    have hsrc : q.get m.src = p.get m.src := by
      unfold Platform.get
      rw [hsame m.src (by simp)]
    have hdst : q.get m.dst = p.get m.dst := by
      unfold Platform.get
      rw [hsame m.dst (by simp)]
    refine ⟨_, _, deed_at hp, pass_eq_deed hp hp_failures hopen limit, ?_⟩
    rw [pass_eq_deed hq hq_failures hopen limit, hsrc, hdst]

end Migration

/-! ## Passes that change places -/

namespace Registry

/-- On a platform in any state that operations lead to without a failure that is still awaited, and
with any registry: passes over two migrations that have no object in common answer the same in
either order, lead to the same registry, and to the same objects up to versions; and so do a pass
and an operation on an object that is none of the two of the migration, where the operation too
answers the same up to the version of its object. -/
theorem independent_migrations (capacity : Nat) (before : List Platform.Operation)
    (hfailures : ((Platform.empty capacity).after before).failures = []) (g : Registry)
    (limit now : Nat) (id : MigrationId) (m : Migration) (hm : g.get? id = some m) :
    let p := (Platform.empty capacity).after before
    let first := g.reconcile Platform.client limit now id p
    (∀ id' m', g.get? id' = some m' → (∀ r ∈ [m.src, m.dst], ∀ s ∈ [m'.src, m'.dst], r ≠ s) →
      let second := first.2.1.reconcile Platform.client limit now id' first.2.2
      let first' := g.reconcile Platform.client limit now id' p
      let second' := first'.2.1.reconcile Platform.client limit now id first'.2.2
      second'.1 = first.1 ∧ second.1 = first'.1 ∧ second.2.1 = second'.2.1 ∧
        second.2.2.Alike second'.2.2) ∧
    ∀ (op : Platform.Operation) r, op.ref? = some r → r ∉ [m.src, m.dst] →
      let later := g.reconcile Platform.client limit now id (op.apply p)
      later.1 = first.1 ∧ later.2.1 = first.2.1 ∧
        (op.answer first.2.2).map Platform.Answer.unversioned =
          (op.answer p).map Platform.Answer.unversioned ∧
        (op.apply first.2.2).Alike later.2.2 := by
  intro p first
  have hp : p.Sound := Platform.sound_after capacity before
  have hconfined := m.confined_pass limit now
  have hfirst : first = _ := reconcile_eq_record hm Platform.client limit now p
  refine ⟨?_, ?_⟩
  · intro id' m' hm' hrefs second first' second'
    have hsides (side side' : Side) : m.refOf side ≠ m'.refOf side' := by
      cases side <;> cases side' <;> exact hrefs _ (by simp [Migration.refOf, Side.pick]) _
        (by simp [Migration.refOf, Side.pick])
    have hne : id ≠ id' := by
      rintro rfl
      rw [hm] at hm'
      cases hm'
      exact hsides .src .src rfl
    have hfirst' : first' = _ := reconcile_eq_record hm' Platform.client limit now p
    -- each migration is known to the registry that the pass over the other one leaves
    have hlater : first.2.1.get? id' = some m' := by
      rw [hfirst, get?_record, if_neg hne.symm, hm']
    have hlater' : first'.2.1.get? id = some m := by
      rw [hfirst', get?_record, if_neg hne, hm]
    have hsecond : second = _ := reconcile_eq_record hlater Platform.client limit now first.2.2
    have hsecond' : second' = _ := reconcile_eq_record hlater' Platform.client limit now first'.2.2
    obtain ⟨hverdict, hverdict', halike⟩ :=
      hconfined.swap (m'.confined_pass limit now) hrefs hp hfailures
    rw [hsecond, hsecond', hfirst, hfirst']
    dsimp only
    rw [hverdict, hverdict']
    exact ⟨rfl, rfl, record_comm hne hm hm' hsides now _ _, halike⟩
  · intro op r hop hr later
    have hlater : later = _ := reconcile_eq_record hm Platform.client limit now (op.apply p)
    have hrefs : ∀ s ∈ [m.src, m.dst], ∀ t ∈ [r], s ≠ t := by
      intro s hs t ht hst
      rw [List.mem_singleton] at ht
      exact hr (ht ▸ hst ▸ hs)
    obtain ⟨hverdict, hanswer, halike⟩ :=
      hconfined.swap (Platform.Operation.confined hop) hrefs hp hfailures
    simp only [Platform.Operation.act] at hverdict hanswer halike
    rw [hlater, hfirst]
    dsimp only
    rw [hverdict]
    exact ⟨rfl, rfl, hanswer, halike⟩

/-- Two migrations of three replicas each are about to scale out, and one of the deployments is
deleted: the passes over both land a write in either order, and the deletion and the pass over the
other migration may change places. -/
theorem independent_migrations_two_scale_outs :
    let web := (Workload.named .deployment "default" "web").withReplicas (some 3)
    let api := (Workload.named .deployment "default" "api").withReplicas (some 3)
    let webCs := (Workload.named .cloneSet "default" "web-cs").withReplicas (some 0)
    let apiCs := (Workload.named .cloneSet "default" "api-cs").withReplicas (some 0)
    let m : Migration :=
      .start ⟨7⟩ web.ref webCs.ref .deploymentToCloneSet ⟨3, 1, none⟩ ⟨1, 1⟩ 0
    let m' : Migration :=
      .start ⟨8⟩ api.ref apiCs.ref .deploymentToCloneSet ⟨3, 1, none⟩ ⟨1, 1⟩ 0
    let g := (Registry.empty.register m).register m'
    let before : List Platform.Operation :=
      [.put web, .put api, .put webCs, .put apiCs, .settleAll]
    let p := (Platform.empty 4).after before
    let first := g.reconcile Platform.client 5 0 ⟨7⟩ p
    let second := first.2.1.reconcile Platform.client 5 0 ⟨8⟩ first.2.2
    let first' := g.reconcile Platform.client 5 0 ⟨8⟩ p
    let second' := first'.2.1.reconcile Platform.client 5 0 ⟨7⟩ first'.2.2
    let op : Platform.Operation := .delete api.ref .orphan
    let later := g.reconcile Platform.client 5 0 ⟨7⟩ (op.apply p)
    p.failures = [] ∧ second.2.2.nextVersion = p.nextVersion + 2 ∧ second.2.1 = second'.2.1 ∧
      second.2.2.Alike second'.2.2 ∧ (op.apply first.2.2).Alike later.2.2 := by
  intro web api webCs apiCs m m' g before p first second first' second' op later
  have hfailures : p.failures = [] := by decide +kernel
  have hm : g.get? ⟨7⟩ = some m := by decide +kernel
  have hm' : g.get? ⟨8⟩ = some m' := by decide +kernel
  have hrefs : ∀ r ∈ [m.src, m.dst], ∀ s ∈ [m'.src, m'.dst], r ≠ s := by decide +kernel
  have hother : api.ref ∉ [m.src, m.dst] := by decide +kernel
  have hversion : second.2.2.nextVersion = p.nextVersion + 2 := by decide +kernel
  clear_value m m' before g
  obtain ⟨hpasses, hoperations⟩ := independent_migrations 4 before hfailures g 5 0 ⟨7⟩ m hm
  obtain ⟨-, -, hregistry, halike⟩ := hpasses ⟨8⟩ m' hm' hrefs
  obtain ⟨-, -, -, hdeleted⟩ := hoperations op api.ref rfl hother
  exact ⟨hfailures, hversion, hregistry, halike, hdeleted⟩

end Registry

end Handover
