import Handover.Proofs.OneShot
import Handover.Proofs.Platform.Written

/-!
# Replacement in one shot

On a platform that answers as it should, a migration in one shot succeeds just if it is `Feasible`:
nobody has claimed the two objects, the source is there, the destination is not, and the destination
has a name. Then the source has been replaced by its `successor` and nothing else on the platform
has changed (`Platform.Replaced`), and the registry knows of one more migration
(`Registry.Gained`).
-/

namespace Handover

namespace Platform

variable {p : Platform} {w : Workload}

theorem create_of_name_eq (hname : w.metadata.name = "") :
    p.create w = (.error (.invalid (w.kind.name ++ " requires a name")), p) := by
  unfold create
  rw [if_pos (String.isEmpty_iff.2 hname)]

/-- An object with a name that is not there yet is created. -/
theorem create_of_free (hname : w.metadata.name ≠ "") (hfree : p.object? w.ref = none) :
    p.create w = (.ok ((w.withStatus {}).stamped 1 p.nextVersion),
      p.store .added ((w.withStatus {}).stamped 1 p.nextVersion)) := by
  unfold create
  rw [if_neg fun hempty => hname (String.isEmpty_iff.1 hempty),
    if_neg (Table.not_contains_of_get?_eq_none hfree)]

/-- A platform on which one object has been created and another one has been deleted with its pods
left alone, and nothing else has changed. -/
structure Replaced (p q : Platform) (src : ResourceRef) (source w : Workload) : Prop where
  object?_eq : ∀ r, q.object? r =
    if r = src then none else if r = w.ref then some w else p.object? r
  deletions_eq : q.deletions = p.deletions ++ [(src, .orphan)]
  failures_eq : q.failures = p.failures
  capacity_eq : q.capacity = p.capacity
  nextVersion_eq : q.nextVersion = p.nextVersion + 1
  log_eq : ∀ kind, (q.logs.get kind).toList = (p.logs.get kind).toList ++
    ([⟨.added, w⟩, ⟨.deleted, source⟩] : List Event).filter (·.object.kind = kind)

theorem replaced_remove_store (p : Platform) (src : ResourceRef) (source w : Workload) :
    p.Replaced ((p.store .added w).remove src source .orphan) src source w where
  object?_eq r := by rw [object?_remove, object?_store]
  deletions_eq := rfl
  failures_eq := rfl
  capacity_eq := rfl
  nextVersion_eq := rfl
  log_eq kind := by
    show (((p.logs.emit .added w).emit .deleted source).get kind).toList = _
    rw [toList_get_emit, toList_get_emit, List.append_assoc, ← List.filter_append,
      List.singleton_append]

end Platform

/-- A registry that knows of one more migration, with the same owners and the same watched kinds.
-/
structure Registry.Gained (g h : Registry) (m : Migration) : Prop where
  get?_eq : ∀ id, h.get? id = if id = m.id then some m else g.get? id
  entries_eq : g.get? m.id = none → h.migrations.entries = g.migrations.entries ++ [(m.id, m)]
  owners_eq : h.owners = g.owners
  watched_eq : h.watched = g.watched

/-- Registering a migration that has ended claims nothing. -/
theorem Registry.gained_register {g : Registry} {m : Migration} (h : m.isTerminal = true) :
    g.Gained (g.register m) m where
  get?_eq id := g.get?_register m id
  entries_eq hnew := Table.entries_insert_of_get?_eq_none hnew m
  owners_eq := by
    unfold Registry.register
    rw [h]
    rfl
  watched_eq := rfl

namespace OneShot

variable {pair : Pair} {src dst : ResourceRef} {p : Platform} {source : Workload}

/-- The destination as the platform stores it: what the conversion carries, under the reference it
is asked for, of generation one and without status. A daemon set declares no replicas, anything else
those of its source if they are copied and none of them otherwise. -/
def successor (pair : Pair) (source : Workload) (dst : ResourceRef) (copyReplicas : Bool)
    (version : Nat) : Workload where
  kind := pair.dstKind
  metadata :=
    { (source.convert pair dst.name).metadata with
      ns := dst.ns
      name := dst.name
      generation := 1
      resourceVersion := version }
  spec :=
    { (source.convert pair dst.name).spec with
      replicas :=
        match pair with
        | .daemonSetToAdvanced => none
        | .deploymentToCloneSet | .statefulSetToAdvanced =>
          if copyReplicas then source.spec.replicas else some 0 }
  status := {}

/-- The destination that is asked for is created as the successor. -/
theorem stamped_destination (pair : Pair) (source : Workload) (dst : ResourceRef)
    (copyReplicas : Bool) (version : Nat) :
    ((destination pair source dst copyReplicas).withStatus {}).stamped 1 version =
      successor pair source dst copyReplicas version := by
  cases pair <;> cases copyReplicas <;> rfl

theorem name_destination (pair : Pair) (source : Workload) (dst : ResourceRef)
    (copyReplicas : Bool) :
    (destination pair source dst copyReplicas).metadata.name = dst.name := by
  cases pair <;> cases copyReplicas <;> rfl

theorem ref_successor (hpair : Pair.ofRefs? src dst = some pair) (source : Workload)
    (copyReplicas : Bool) (version : Nat) :
    (successor pair source dst copyReplicas version).ref = dst := by
  rw [← stamped_destination, Workload.ref_stamped, Workload.ref_withStatus,
    ref_destination hpair]

/-! ## Each step on a platform -/

theorem readSource_platform (src dst : ResourceRef) (p : Platform) :
    readSource Platform.client src dst p =
      match p.object? src, p.object? dst with
      | none, _ => (.error (.platform (.notFound src)), p)
      | some _, some _ => (.error (.destinationExists dst), p)
      | some source, none => (.ok source, p) := by
  unfold readSource ensureAbsent
  simp only [Platform.client, Platform.get]
  cases p.object? src with
  | none => rfl
  | some source =>
    dsimp only
    cases p.object? dst <;> rfl

/-- All that can come of replacing a source by a destination that is not there. -/
theorem replaceSource_platform (hpair : Pair.ofRefs? src dst = some pair)
    (hsource : p.object? src = some source) (hfree : p.object? dst = none) (copyReplicas : Bool) :
    replaceSource Platform.client src (destination pair source dst copyReplicas) p =
      if dst.name = "" then
        (.error (.platform (.invalid (pair.dstKind.name ++ " requires a name"))), p)
      else
        (.ok (successor pair source dst copyReplicas p.nextVersion),
          (p.store .added (successor pair source dst copyReplicas p.nextVersion)).remove src source
            .orphan) := by
  have href := ref_destination hpair source copyReplicas
  have hname := name_destination pair source dst copyReplicas
  have hkind : (destination pair source dst copyReplicas).kind = pair.dstKind := by
    cases pair <;> cases copyReplicas <;> rfl
  unfold replaceSource createObject
  simp only [Platform.client]
  by_cases hempty : dst.name = ""
  · rw [if_pos hempty, Platform.create_of_name_eq (hname.trans hempty), hkind]
    rfl
  · rw [if_neg hempty, Platform.create_of_free (hname.trans_ne hempty) (href.symm ▸ hfree),
      stamped_destination]
    -- the source is still there, for the destination is another object
    have hstill : (p.store .added (successor pair source dst copyReplicas p.nextVersion)).object?
        src = some source := by
      rw [Platform.object?_store, ref_successor hpair, if_neg (Migrator.ne_of_ofRefs? hpair),
        hsource]
    dsimp only
    unfold Platform.delete
    rw [hstill]
    rfl

theorem transfer_platform (hpair : Pair.ofRefs? src dst = some pair)
    (hstrategy : pair.strategy = .oneShot) (copyReplicas : Bool) (p : Platform) :
    transfer Platform.client pair src dst copyReplicas p =
      match p.object? src, p.object? dst with
      | none, _ => (.error (.platform (.notFound src)), p)
      | some _, some _ => (.error (.destinationExists dst), p)
      | some source, none =>
        if dst.name = "" then
          (.error (.platform (.invalid (pair.dstKind.name ++ " requires a name"))), p)
        else
          (.ok (successor pair source dst copyReplicas p.nextVersion),
            (p.store .added (successor pair source dst copyReplicas p.nextVersion)).remove src
              source .orphan) := by
  unfold transfer
  rw [readSource_platform]
  cases hsource : p.object? src with
  | none => rfl
  | some source =>
    cases hdst : p.object? dst with
    | some w => rfl
    | none =>
      dsimp only
      rw [hstrategy]
      exact replaceSource_platform hpair hsource hdst copyReplicas

/-! ## Whole migrations -/

/-- Nothing stands in the way of a migration in one shot. -/
structure Feasible (g : Registry) (p : Platform) (src dst : ResourceRef) : Prop where
  src_free : g.ownerOf? src = none
  dst_free : g.ownerOf? dst = none
  source : ∃ w, p.object? src = some w
  absent : p.object? dst = none
  named : dst.name ≠ ""

/-- What a feasible migration answers and does. -/
theorem migrate_of_feasible (hpair : Pair.ofRefs? src dst = some pair)
    (hstrategy : pair.strategy = .oneShot) (copyReplicas : Bool) (id : MigrationId) (now : Nat)
    {g : Registry} (h : Feasible g p src dst) (hsource : p.object? src = some source) :
    let w := successor pair source dst copyReplicas p.nextVersion
    let m := Migration.completed id src dst pair w.declared now
    migrate Platform.client pair src dst copyReplicas id now g p =
      (.ok m.snapshot, g.register m, (p.store .added w).remove src source .orphan) := by
  have hfree : ensureBothFree g src dst = .ok () := by
    rcases ensureBothFree_cases g src dst with ⟨hfree, -, -⟩ | ⟨r, -, rfl | rfl, htaken⟩
    · exact hfree
    · exact absurd h.src_free htaken
    · exact absurd h.dst_free htaken
  unfold migrate
  rw [hfree, transfer_platform hpair hstrategy, hsource, h.absent]
  dsimp only
  rw [if_neg h.named]

/-- A migration that succeeds was feasible. -/
theorem feasible_of_migrate (hpair : Pair.ofRefs? src dst = some pair)
    (hstrategy : pair.strategy = .oneShot) {copyReplicas : Bool} {id : MigrationId} {now : Nat}
    {g : Registry} {s : Snapshot}
    (h : (migrate Platform.client pair src dst copyReplicas id now g p).1 = .ok s) :
    Feasible g p src dst := by
  unfold migrate at h
  rcases ensureBothFree_cases g src dst with ⟨hfree, hsrc, hdst⟩ | ⟨r, htaken, -⟩
  · rw [hfree, transfer_platform hpair hstrategy] at h
    cases hsource : p.object? src with
    | none =>
      rw [hsource] at h
      cases h
    | some source =>
      cases habsent : p.object? dst with
      | some w =>
        rw [hsource, habsent] at h
        cases h
      | none =>
        rw [hsource, habsent] at h
        dsimp only at h
        by_cases hname : dst.name = ""
        · rw [if_pos hname] at h
          cases h
        · exact ⟨hsrc, hdst, ⟨source, hsource⟩, habsent, hname⟩
  · rw [htaken] at h
    cases h

/-- A migration in one shot succeeds just if nobody has claimed either object, the source is there,
the destination is not and has a name, whatever else is on the platform and in the registry. Then
the source has been replaced by its successor, which has exactly the reference that was asked for;
nothing else on the platform has changed. The registry knows of one more migration, which has
succeeded without moving a replica, and nothing is claimed or released. -/
theorem replaces_source_exactly {pair : Pair} {src dst : ResourceRef}
    (hpair : Pair.ofRefs? src dst = some pair) (hstrategy : pair.strategy = .oneShot)
    (copyReplicas : Bool) (id : MigrationId) (now : Nat) (g : Registry) (p : Platform) :
    let result := migrate Platform.client pair src dst copyReplicas id now g p
    ((∃ s, result.1 = .ok s) ↔ Feasible g p src dst) ∧
      ∀ s, result.1 = .ok s → ∃ source m,
        let w := successor pair source dst copyReplicas p.nextVersion
        p.object? src = some source ∧ w.ref = dst ∧ p.Replaced result.2.2 src source w ∧
          g.Gained result.2.1 m ∧ m.snapshot = s ∧ m.id = id ∧ m.src = src ∧ m.dst = dst ∧
          m.phase = .succeeded ∧ m.counters = .zero := by
  intro result
  refine ⟨⟨fun ⟨s, hs⟩ => feasible_of_migrate hpair hstrategy hs, fun hfeasible => ?_⟩, ?_⟩
  · obtain ⟨source, hsource⟩ := hfeasible.source
    have hresult := migrate_of_feasible hpair hstrategy copyReplicas id now hfeasible hsource
    exact ⟨_, congrArg Prod.fst hresult⟩
  · intro s hs
    have hfeasible := feasible_of_migrate hpair hstrategy hs
    obtain ⟨source, hsource⟩ := hfeasible.source
    have hresult : result = _ :=
      migrate_of_feasible hpair hstrategy copyReplicas id now hfeasible hsource
    rw [hresult] at hs ⊢
    exact ⟨source, _, hsource, ref_successor hpair source copyReplicas _,
      p.replaced_remove_store src source _, Registry.gained_register rfl, Except.ok.inj hs,
      rfl, rfl, rfl, rfl, rfl⟩

/-- A stateful set moves to another namespace under another name while the deployment that has its
name is being migrated: it succeeds, with its replicas, and the deployment and its owner stay. -/
theorem replaces_source_exactly_renamed :
    let pg := ((Workload.named .statefulSet "db" "pg").withReplicas (some 3)).stamped 7 0
    let web := (Workload.named .deployment "db" "pg").withReplicas (some 2)
    let dst : ResourceRef := .of .advancedStatefulSet "prod" "store"
    let p := (((Platform.empty 4).put pg).2.put web).2
    let g := Registry.empty.register (.start ⟨1⟩ web.ref (.of .cloneSet "db" "pg")
      .deploymentToCloneSet ⟨2, 1, none⟩ ⟨1, 1⟩ 0)
    let result := migrate Platform.client .statefulSetToAdvanced pg.ref dst true ⟨2⟩ 10 g p
    Pair.ofRefs? pg.ref dst = some .statefulSetToAdvanced ∧
      Pair.statefulSetToAdvanced.strategy = .oneShot ∧
      (∃ s, result.1 = .ok s) ∧ result.2.2.object? pg.ref = none ∧
      result.2.2.object? dst = some
        (((Workload.named .advancedStatefulSet "prod" "store").withReplicas (some 3)).stamped 1 3) ∧
      result.2.2.object? web.ref = some (web.stamped 1 2) ∧
      result.2.2.deletions = [(pg.ref, .orphan)] ∧ result.2.1.migrations.size = 2 ∧
      result.2.1.ownerOf? web.ref = some ⟨1⟩ := by
  intro pg web dst p g result
  have hpair : Pair.ofRefs? pg.ref dst = some .statefulSetToAdvanced := by decide
  have hsource : p.object? pg.ref = some (pg.stamped 7 1) := by rfl
  have hfeasible : Feasible g p pg.ref dst :=
    ⟨by decide, by decide, ⟨_, hsource⟩, by decide +kernel, by decide⟩
  obtain ⟨hiff, hdoes⟩ := replaces_source_exactly hpair rfl true ⟨2⟩ 10 g p
  obtain ⟨s, hs⟩ := hiff.2 hfeasible
  obtain ⟨source, m, hthere, href, hreplaced, hgained, -, hid, -⟩ := hdoes s hs
  obtain rfl : source = pg.stamped 7 1 := Option.some.inj (hthere.symm.trans hsource)
  have hobject := hreplaced.object?_eq
  rw [href] at hobject
  have howner := congrArg (Table.get? · web.ref) hgained.owners_eq
  have hentries := hgained.entries_eq (hid ▸ by decide)
  refine ⟨hpair, rfl, ⟨s, hs⟩, hobject pg.ref, hobject dst, hobject web.ref,
    hreplaced.deletions_eq, ?_, howner⟩
  exact congrArg List.length hentries

end OneShot

end Handover
