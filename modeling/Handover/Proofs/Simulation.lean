import Handover.Command
import Handover.Proofs.Conservation
import Handover.Proofs.Json.Text
import Handover.Proofs.OneShot
import Handover.Proofs.Refusal

/-!
# Simulations report no false success

Between what the caller of a simulation does, controllers, workers and subscriptions get their turns
in any order: `Simulation.Reports` are all reports that can come of it, of which that of
`Simulation.run` is one, and `Command.Transcripts` all that can be seen of the command. No migration
is known before the submission (`Scene.Vacant`), so the objects then declare what they were given,
and from there on replicas are conserved. Hence a command that exits with zero has moved as many
replicas as it was asked to move, and that many were there, and this is what it prints
(`Command.success_is_genuine`).
-/

namespace Handover

-- What arguments ask for can be found by evaluation.
deriving instance DecidableEq for Simulation

deriving instance DecidableEq for Command.Invocation

/-- What a source declares is the target unless the request has one. -/
theorem Request.replicas_of_resolve {request : Request} {declared : Int} {goal : Goal}
    (h : request.resolve declared = .ok goal) :
    request.validate = .ok () ∧ goal.replicas = request.replicas.getD declared := by
  unfold resolve at h
  cases hvalid : request.validate with
  | error fault =>
    rw [hvalid] at h
    cases h
  | ok =>
    rw [hvalid] at h
    dsimp only at h
    split at h
    · cases h
    · cases h
      exact ⟨rfl, rfl⟩

/-- A clone set can be created only under a name. It is stored without replicas, and nothing else
changes. -/
theorem OneShot.of_createDestination {src dst : ResourceRef} {created : Workload} {p q : Platform}
    (h : createDestination Platform.client src dst false p = (.ok created, q)) :
    created.ref = dst ∧ created.declared = 0 ∧ dst.name ≠ "" ∧ q = p.store .added created := by
  have hread := readSource_client src dst p
  unfold createDestination at h
  split at h
  · next hpair =>
    rcases hsource : readSource Platform.client src dst p with ⟨e | source, p'⟩
    · rw [hsource] at h
      cases h
    · rw [hsource] at h hread
      obtain rfl : p' = p := hread
      have href := ref_destination hpair source false
      dsimp only [createObject, Platform.client] at h
      rcases hcreate : p'.create (destination .deploymentToCloneSet source dst false) with
        ⟨e | made, q'⟩
      · rw [hcreate] at h
        cases h
      · rw [hcreate] at h
        cases h
        obtain ⟨hname, rfl, hstore⟩ := Platform.of_create_eq_ok hcreate
        exact ⟨href, rfl, hname, hstore⟩
  · cases h

/-- A submission that a migrator without migrations accepts leaves the platform alone and starts one
migration, with the goal that the request sets for what the source declares. -/
theorem Migrator.of_first_submit {m n : Migrator} {now : Nat} {id : MigrationId}
    {src dst : ResourceRef} {request : Request} {pair : Pair} {p q : Platform} {N : Int}
    {snapshot : Snapshot} (hempty : m.engine.registry = .empty)
    (hpair : Pair.ofRefs? src dst = some pair) (hstrategy : pair.strategy = .boundedSurge)
    (hN : p.declared? src = some N)
    (h : m.submit Platform.client now id src dst request p = (.ok snapshot, n, q)) :
    q = p ∧ snapshot.id = id ∧ ∃ goal baseline, request.resolve N = .ok goal ∧
      ∀ other, n.engine.registry.get? other =
        if other = id then some (.start id src dst pair goal baseline now) else none := by
  have hidentified : m.engine.registry.Identified := hempty ▸ Registry.identified_empty
  have hbounded : ∀ other, Pair.ofRefs? src dst = some other → other.strategy = .boundedSurge := by
    intro other hother
    rwa [← Option.some.inj (hpair.symm.trans hother)]
  obtain ⟨-, hleaves, -, haccepted⟩ := of_submit hidentified hbounded h
  obtain ⟨pair', source, goal, baseline, hrefs, hsource, hresolve, rfl, henrolled⟩ :=
    haccepted snapshot rfl
  obtain rfl : pair = pair' := Option.some.inj (hpair.symm.trans hrefs)
  have hdeclared : source.declared = N :=
    have hsource := Platform.declared?_of_object? (Platform.object?_of_get hsource)
    Option.some.inj (hsource.symm.trans hN)
  refine ⟨hleaves.view_eq (fun p => p) (fun _ _ => rfl) (fun _ _ => rfl), rfl, goal, baseline,
    hdeclared ▸ hresolve, fun other => (henrolled.get?_eq other).trans ?_⟩
  have hpruned : (m.prune now).engine.registry.get? other = none := by
    show (m.engine.registry.prune m.settings.retention now).2.get? other = none
    rw [Registry.get?_prune, hempty]
    split <;> rfl
  rw [hpruned]
  rfl

theorem System.of_create_eq_ok {y z : System} {src dst : ResourceRef} {created : Workload}
    (h : y.create src dst false = (.ok created, z)) :
    created.ref = dst ∧ created.declared = 0 ∧ dst.name ≠ "" ∧
      z = { y with platform := y.platform.store .added created } := by
  unfold create Migrator.create at h
  by_cases hstopping : y.migrator.isShuttingDown = true
  · rw [if_pos hstopping] at h
    cases h
  · rw [if_neg hstopping] at h
    rcases hresult : OneShot.createDestination Platform.client src dst false y.platform with
      ⟨e | w, q⟩
    · rw [hresult] at h
      cases h
    · rw [hresult] at h
      cases h
      obtain ⟨href, hdeclared, hname, rfl⟩ := OneShot.of_createDestination hresult
      exact ⟨href, hdeclared, hname, rfl⟩

/-! ## Before a submission -/

namespace Scene

/-- A vigilant scene in which no migration is known. -/
structure Vacant (s : Scene) : Prop where
  vigilant : s.Vigilant
  registry_eq : s.engine.registry = .empty

variable {s t : Scene} {y : System}

theorem vacant_start (settings : Settings) (capacity : Nat) (firstId : MigrationId) :
    (start settings capacity firstId).Vacant :=
  ⟨vigilant_start settings capacity firstId, rfl⟩

/-- Whatever others do to the platform, no migration comes to be known. -/
theorem Vacant.next (h : s.Vacant) (hengine : y.migrator.engine = s.engine)
    (hevolves : s.system.platform.Evolves y.platform) : (s.next y).Vacant :=
  ⟨h.vigilant.next_of_evolves hengine hevolves,
    (congrArg Engine.registry hengine).trans h.registry_eq⟩

/-- Left to itself a system without migrations moves no replicas. -/
theorem Vacant.lapse (h : s.Vacant) (hlapse : s.Lapse t) :
    t.Vacant ∧ ∀ r, t.system.platform.declared? r = s.system.platform.declared? r := by
  have hunmoved := hlapse.unmoved h.vigilant fun id => by
    rw [h.registry_eq]
    rfl
  exact ⟨⟨hlapse.vigilant h.vigilant, hunmoved.registry_eq.trans h.registry_eq⟩,
    hunmoved.declared?_eq⟩

/-- After others have done something to the platform, objects go on to declare what they do then. -/
theorem Vacant.lapse_onPlatform (h : s.Vacant) {f : Platform → Platform}
    (hf : s.system.platform.Evolves (f s.system.platform))
    (hlapse : (s.next (s.system.onPlatform f)).Lapse t) :
    t.Vacant ∧ ∀ r, t.system.platform.declared? r = (f s.system.platform).declared? r := by
  have hnext : (s.next (s.system.onPlatform f)).Vacant := h.next rfl hf
  exact hnext.lapse hlapse

/-- A clone set that is created declares no replicas, and other objects what they did. -/
theorem Vacant.create (h : s.Vacant) {src dst : ResourceRef} {created : Workload}
    (hcreate : (s.system.create src dst false).1 = .ok created) :
    created.ref = dst ∧ dst.name ≠ "" ∧ (s.next (s.system.create src dst false).2).Vacant ∧
      ∀ r, (s.system.create src dst false).2.platform.declared? r =
        if r = dst then some 0 else s.system.platform.declared? r := by
  obtain ⟨href, hzero, hname, hcreated⟩ := System.of_create_eq_ok (Prod.ext hcreate rfl)
  refine ⟨href, hname, ⟨h.vigilant.step (.create src dst false), h.registry_eq⟩, fun r => ?_⟩
  have hstored := s.system.platform.declared?_store .added created r
  rw [href, hzero] at hstored
  exact (congrArg (fun y => y.platform.declared? r) hcreated).trans hstored

/-- From a submission on that is accepted where no migration was known, replicas are conserved. -/
theorem Vacant.carries_submit (h : s.Vacant) {src dst : ResourceRef} {request : Request}
    {pair : Pair} (hpair : Pair.ofRefs? src dst = some pair)
    (hstrategy : pair.strategy = .boundedSurge) {N D : Int}
    (hN : s.system.platform.declared? src = some N)
    (hD : s.system.platform.declared? dst = some D) {snapshot : Snapshot}
    (hsubmit : (s.system.submit src dst request).1 = .ok snapshot) :
    ∃ goal, request.resolve N = .ok goal ∧
      (s.next (s.system.submit src dst request).2).Carries snapshot.id goal N D := by
  have hvigilant := h.vigilant.step (.submit src dst request)
  obtain ⟨hplatform, hid, goal, baseline, hresolve, hget⟩ :=
    Migrator.of_first_submit h.registry_eq hpair hstrategy hN (Prod.ext hsubmit rfl)
  obtain ⟨htarget, hsurge⟩ := Request.of_resolve_eq_ok hresolve
  refine ⟨goal, hresolve, hvigilant, fun other hne => ?_, _, (hget snapshot.id).trans (if_pos hid),
    rfl, ?_⟩
  · exact (hget other).trans (if_neg (hid ▸ hne))
  · refine Migration.conserves_start (Migrator.ne_of_ofRefs? hpair) htarget hsurge ?_ ?_
    · exact (congrArg (Platform.declared? · src) hplatform).trans hN
    · exact (congrArg (Platform.declared? · dst) hplatform).trans hD

end Scene

/-! ## Simulations -/

namespace Simulation

/-- The scene before anything is asked of the migrator. -/
def opening (m : Simulation) (settings : Settings) (firstId : MigrationId) : Scene :=
  (Scene.start settings Platform.defaultCapacity firstId).next (m.prepare settings firstId)

/-- What is done to a platform for the new clone set to declare what it is to declare. -/
def refit (m : Simulation) (created : Workload) (p : Platform) : Platform :=
  if 0 < m.destinationReplicas then
    place (created.withReplicas (some m.destinationReplicas)) p
  else p

/-- A scene in which the objects of a simulation are there: the clone set has been created, it was
given its replicas, and everything was settled. -/
inductive Ready (m : Simulation) (settings : Settings) (firstId : MigrationId) : Scene → Prop
  | intro {a b c d : Scene} {created : Workload} (ha : (m.opening settings firstId).Lapse a)
      (hcreate : (a.system.create m.source.ref m.destination false).1 = .ok created)
      (hb : (a.next (a.system.create m.source.ref m.destination false).2).Lapse b)
      (hc : (b.next (b.system.onPlatform (m.refit created))).Lapse c)
      (hd : (c.next (c.system.onPlatform settled)).Lapse d) : Ready m settings firstId d

/-- How a simulation waits for the end of a migration. -/
def polling (m : Simulation) (id : MigrationId) (y : System) : Polling :=
  ⟨id, y.migrator.settings.pollIntervalMs, m.waitSeconds * 1000⟩

/-- What can be reported of a simulation: the clone set could not be created, the submission was
refused, or what the caller was told who waited. -/
inductive Reports (m : Simulation) (settings : Settings) (firstId : MigrationId) :
    SimulationReport → Prop
  | uncreated {s : Scene} {e : MigrationError} (h : (m.opening settings firstId).Lapse s)
      (hcreate : (s.system.create m.source.ref m.destination false).1 = .error e) :
      Reports m settings firstId ⟨none, some (.creation e)⟩
  | refused {s : Scene} {e : MigrationError} (h : m.Ready settings firstId s)
      (hsubmit : (s.system.submit m.source.ref m.destination m.request).1 = .error e) :
      Reports m settings firstId ⟨none, some (.submission e)⟩
  | awaited {s : Scene} {snapshot : Snapshot} {outcome : Except MigrationError Snapshot}
      (h : m.Ready settings firstId s)
      (hsubmit : (s.system.submit m.source.ref m.destination m.request).1 = .ok snapshot)
      (hwaits : (s.next (s.system.submit m.source.ref m.destination m.request).2).Waits
        (m.polling snapshot.id (s.system.submit m.source.ref m.destination m.request).2) outcome) :
      Reports m settings firstId (report outcome)

variable {m : Simulation} {settings : Settings} {firstId : MigrationId} {s : Scene}

/-- What a simulation reports is among what can be reported. -/
theorem reports_run (m : Simulation) (settings : Settings) (firstId : MigrationId) :
    m.Reports settings firstId (m.run settings firstId) := by
  unfold run
  rcases hcreate : (m.prepare settings firstId).create m.source.ref m.destination false with
    ⟨e | created, y⟩
  · exact .uncreated .refl (congrArg Prod.fst hcreate)
  dsimp only
  have hready : ∃ s, m.Ready settings firstId s ∧ s.system = m.equip created y := by
    refine ⟨_, .intro .refl (congrArg Prod.fst hcreate) .refl .refl .refl, ?_⟩
    show (((m.prepare settings firstId).create m.source.ref m.destination false).2.onPlatform
      (m.refit created)).onPlatform settled = m.equip created y
    rw [hcreate]
    rfl
  obtain ⟨s, hs, hsystem⟩ := hready
  rw [← hsystem]
  rcases hsubmit : s.system.submit m.source.ref m.destination m.request with ⟨e | snapshot, z⟩
  · exact .refused hs (congrArg Prod.fst hsubmit)
  · have hwaits := (s.next z).waits_poll (m.polling snapshot.id z)
    have hsubmitted := congrArg Prod.snd hsubmit
    exact .awaited hs (congrArg Prod.fst hsubmit) (hsubmitted ▸ hwaits)

theorem pair_eq (m : Simulation) :
    Pair.ofRefs? m.source.ref m.destination = some .deploymentToCloneSet :=
  Pair.ofRefs?_eq_some_iff.2 ⟨m.source.kind?_ref, ResourceRef.kind?_of .cloneSet m.ns m.name⟩

/-! ### The platform of a simulation -/

theorem evolves_place (w : Workload) (p : Platform) : p.Evolves (place w p) :=
  (Platform.Operation.put w).evolves p

theorem evolves_settled (p : Platform) : p.Evolves (settled p) :=
  Platform.Operation.settleAll.evolves p

theorem evolves_refit (m : Simulation) (created : Workload) (p : Platform) :
    p.Evolves (m.refit created p) := by
  unfold refit
  split
  · exact evolves_place _ p
  · exact .refl p

theorem declared?_place (w : Workload) (p : Platform) (r : ResourceRef) :
    (place w p).declared? r = if r = w.ref then some w.declared else p.declared? r :=
  p.declared?_store _ _ r

theorem declared?_settled {p : Platform} (hp : p.Sound) (r : ResourceRef) :
    (settled p).declared? r = p.declared? r :=
  Platform.declared?_of_reports hp .settleAll trivial r

/-- A clone set that declared nothing is given as many replicas as it is to declare. -/
theorem declared?_refit {created : Workload} {p : Platform} (hp : p.declared? created.ref = some 0)
    (r : ResourceRef) :
    (m.refit created p).declared? r =
      if r = created.ref then some (max m.destinationReplicas 0) else p.declared? r := by
  unfold refit
  split
  · next hpos =>
    rw [declared?_place, max_eq_left hpos.le]
    rfl
  · next hzero =>
    rw [max_eq_right (not_lt.1 hzero)]
    split
    · next hr => rw [hr, hp]
    · rfl

theorem platform_prepare (m : Simulation) (settings : Settings) (firstId : MigrationId) :
    (m.prepare settings firstId).platform =
      settled (place m.source (.empty Platform.defaultCapacity)) := by
  unfold prepare
  dsimp only [System.simulate, System.onPlatform, System.start]

/-- At the beginning no migration is known, and the deployment declares what it was given. -/
theorem vacant_opening (m : Simulation) (settings : Settings) (firstId : MigrationId) :
    (m.opening settings firstId).Vacant ∧
      (m.opening settings firstId).system.platform.declared? m.source.ref =
        some m.sourceReplicas := by
  have hp := Platform.sound_empty Platform.defaultCapacity
  have hplace := evolves_place m.source (.empty Platform.defaultCapacity)
  constructor
  · refine (Scene.vacant_start ..).next rfl ?_
    rw [platform_prepare]
    exact hplace.trans (evolves_settled _)
  · show (m.prepare settings firstId).platform.declared? m.source.ref = _
    rw [platform_prepare, declared?_settled (hplace.sound hp), declared?_place, if_pos rfl]
    rfl

/-- When the objects are ready no migration is known, and both declare what they were given. The
clone set could not have been created without a name. -/
theorem Ready.spec (h : m.Ready settings firstId s) :
    s.Vacant ∧ m.name ≠ "" ∧
      s.system.platform.declared? m.source.ref = some m.sourceReplicas ∧
      s.system.platform.declared? m.destination = some (max m.destinationReplicas 0) := by
  have hne : m.source.ref ≠ m.destination := Migrator.ne_of_ofRefs? m.pair_eq
  obtain ⟨hopening, hsource⟩ := vacant_opening m settings firstId
  cases h with
  | @intro a b c _ created ha hcreate hb hc hd =>
    obtain ⟨hva, hda⟩ := hopening.lapse ha
    obtain ⟨href, hname, hcreated, hdcreated⟩ := hva.create hcreate
    obtain ⟨hvb, hdb⟩ := hcreated.lapse hb
    obtain ⟨hvc, hdc⟩ := hvb.lapse_onPlatform (m.evolves_refit created _) hc
    obtain ⟨hvd, hdd⟩ := hvc.lapse_onPlatform (evolves_settled _) hd
    have hsettled := declared?_settled (Engine.Vigilant.sound hvc.vigilant)
    have hzero : b.system.platform.declared? created.ref = some 0 := by
      rw [hdb, href]
      exact (hdcreated _).trans (if_pos rfl)
    refine ⟨hvd, hname, ?_, ?_⟩
    · rw [hdd, hsettled, hdc, declared?_refit hzero, href, if_neg hne, hdb]
      exact (hdcreated _).trans ((if_neg hne).trans ((hda _).trans hsource))
    · rw [hdd, hsettled, hdc, declared?_refit hzero, href, if_pos rfl]

/-! ### Success -/

/-- How many replicas a simulation is to move. -/
def target (m : Simulation) : Int :=
  m.request.replicas.getD m.sourceReplicas

/-- What a simulation needs to succeed: there is a replica to move at least, and the deployment
declares as many as there are to move; the clone set can declare them beside its own; it has a name;
and the request is valid. -/
structure Feasible (m : Simulation) : Prop where
  one_le_target : 1 ≤ m.target
  target_le_source : m.target ≤ m.sourceReplicas
  in_range : inReplicaRange (max m.destinationReplicas 0 + m.target) = true
  named : m.name ≠ ""
  valid : m.request.validate = .ok ()

/-- A snapshot of success, after all replicas were moved that were to be moved. -/
structure Achieved (m : Simulation) (s : Snapshot) : Prop where
  phase_eq : s.phase = .succeeded
  counters_eq : s.counters = ⟨m.target, m.target⟩
  feasible : m.Feasible

/-- What is printed of a success: the state, and the target as the count of either side. -/
def successText (m : Simulation) (s : Snapshot) : String :=
  "\x7b\n  \"id\": " ++ Json.compact (.str s.id.text) ++ ",\n  \"state\": \"Succeeded\"" ++
    ",\n  \"message\": " ++ Json.compact (.str s.message) ++
    ",\n  \"src_migrated_replicas\": " ++ toString m.target ++
    ",\n  \"dst_migrated_replicas\": " ++ toString m.target ++ "\n\x7d\n"

/-- A snapshot that was achieved is printed as a success. -/
theorem Achieved.lines_fields {snapshot : Snapshot} (h : m.Achieved snapshot) :
    Json.lines (snapshot.fields snapshot.id.text) ++ "\n" = m.successText snapshot := by
  have hkeys : ∀ k ∈ ["id", "state", "message", "src_migrated_replicas", "dst_migrated_replicas"],
      Json.quotedChars k = k.toList ++ ['"'] := by decide +kernel
  have hstate : Json.quotedChars snapshot.phase.label = "Succeeded".toList ++ ['"'] := by
    rw [h.phase_eq]
    decide +kernel
  refine String.toList_injective ?_
  unfold Json.lines Snapshot.fields successText
  rw [h.counters_eq]
  simp [Json.toList_append, Json.toList_appendString, Json.toList_compact, Json.chars, hkeys,
    hstate]

/-- Whoever is told of success after a submission is told of a success that was achieved. -/
theorem Ready.achieved (h : m.Ready settings firstId s) {snapshot : Snapshot}
    (hsubmit : (s.system.submit m.source.ref m.destination m.request).1 = .ok snapshot) {t : Scene}
    (hlapse : (s.next (s.system.submit m.source.ref m.destination m.request).2).Lapse t)
    {last : Snapshot} (hquery : t.system.migrator.query snapshot.id = .ok last)
    (hphase : last.phase = .succeeded) : m.Achieved last := by
  obtain ⟨hvacant, hname, hsource, hdestination⟩ := h.spec
  obtain ⟨goal, hresolve, hcarries⟩ :=
    hvacant.carries_submit m.pair_eq rfl hsource hdestination hsubmit
  obtain ⟨-, -, k, hk, hgoal, hconserves⟩ := hcarries.lapse hlapse
  obtain ⟨hvalid, htarget⟩ := Request.replicas_of_resolve hresolve
  have hlast : last = k.snapshot := by
    have hquery : t.engine.registry.query snapshot.id = .ok last := hquery
    unfold Registry.query at hquery
    rw [hk] at hquery
    exact (Except.ok.inj hquery).symm
  have htarget : k.goal.replicas = m.target := hgoal ▸ htarget
  have hpositive : 1 ≤ k.goal.replicas := hgoal ▸ (Request.of_resolve_eq_ok hresolve).1
  rw [hlast] at hphase ⊢
  obtain ⟨hcounters, hle, hrange⟩ := hconserves.of_succeeded hphase hpositive
  rw [htarget] at hcounters hle hrange hpositive
  exact ⟨hphase, hcounters, hpositive, hle, hrange, hname, hvalid⟩

/-- A report has no error and shows success that was achieved, or it has one and shows none. -/
theorem Reports.achieved_or_error {r : SimulationReport} (h : m.Reports settings firstId r) :
    (∃ s, r = ⟨some s, none⟩ ∧ m.Achieved s) ∨
      ∃ result e, r = ⟨result, some e⟩ ∧ ∀ s, result = some s → s.phase ≠ .succeeded := by
  cases h with
  | uncreated h hcreate => exact .inr ⟨none, _, rfl, nofun⟩
  | refused h hsubmit => exact .inr ⟨none, _, rfl, nofun⟩
  | awaited h hsubmit hwaits =>
    cases hwaits with
    | unknown hlapse hquery => exact .inr ⟨none, _, rfl, nofun⟩
    | expired hlapse hquery hexecuting => exact .inr ⟨none, _, rfl, nofun⟩
    | @ended t last hlapse hquery hterminal =>
      unfold report
      cases hphase : last.phase with
      | executing =>
        rw [hphase] at hterminal
        cases hterminal
      | failed =>
        refine .inr ⟨some last, .failed last.message, by simp [hphase], fun s hs => ?_⟩
        rw [← Option.some.inj hs, hphase]
        nofun
      | succeeded =>
        exact .inl ⟨last, by simp [hphase], h.achieved hsubmit hlapse hquery hphase⟩

end Simulation

/-! ## The command -/

namespace Command

/-- What can be seen of the command when it is asked for a simulation. -/
inductive Transcripts (contents : String → Option String) (firstId : MigrationId)
    (config : Option String) (m : Simulation) : Transcript → Prop
  | unconfigured {e : ConfigError} (h : settings contents config = .error e) :
      Transcripts contents firstId config m (.failure none [e.message])
  | reported {given : Settings} {r : SimulationReport} (h : settings contents config = .ok given)
      (hreports : m.Reports given firstId r) : Transcripts contents firstId config m (.ofReport r)

variable {contents : String → Option String} {firstId : MigrationId} {arguments : List String}
  {config : Option String} {m : Simulation} {t : Transcript}

/-- What the command does is among what can be seen of it. -/
theorem transcripts_run (h : parse arguments = .ok (.simulate config m)) :
    Transcripts contents firstId config m (run contents firstId arguments) := by
  unfold run
  rw [h]
  show Transcripts contents firstId config m (perform contents firstId (.simulate config m))
  unfold perform
  dsimp only
  cases hsettings : settings contents config with
  | error e => exact .unconfigured hsettings
  | ok given => exact .reported hsettings (m.reports_run given firstId)

theorem Transcripts.achieved_or_failed (h : Transcripts contents firstId config m t) :
    (t.exitCode = 0 ∧ ∃ s, t.result = some s ∧ m.Achieved s ∧ t.outputText = m.successText s) ∨
      t.exitCode = 1 ∧ ∀ s, t.result = some s → s.phase ≠ .succeeded := by
  cases h with
  | unconfigured h => exact .inr ⟨rfl, nofun⟩
  | reported h hreports =>
    rcases hreports.achieved_or_error with ⟨s, rfl, hachieved⟩ | ⟨result, e, rfl, hfailed⟩
    · refine .inl ⟨rfl, s, rfl, hachieved, ?_⟩
      show "" ++ (Json.lines (s.fields s.id.text) ++ "\n") = _
      rw [String.empty_append, hachieved.lines_fields]
    · exact .inr ⟨rfl, hfailed⟩

/-- Success is genuine. Whatever arguments ask for a simulation, and in whatever order controllers,
workers and subscriptions get their turns between what the caller does, that of `run` among them:
the command exits with zero and prints a snapshot of success, in which both counters are at the
target, as the text says; or it exits with one and prints no such snapshot. It exits with one
whenever the simulation is not feasible. -/
theorem success_is_genuine (h : parse arguments = .ok (.simulate config m)) :
    Transcripts contents firstId config m (run contents firstId arguments) ∧
      ∀ t, Transcripts contents firstId config m t →
        ((t.exitCode = 0 ∧
            ∃ s, t.result = some s ∧ m.Achieved s ∧ t.outputText = m.successText s) ∨
          t.exitCode = 1 ∧ ∀ s, t.result = some s → s.phase ≠ .succeeded) ∧
        (¬ m.Feasible → t.exitCode = 1) := by
  refine ⟨transcripts_run h, fun t ht => ⟨ht.achieved_or_failed, fun hinfeasible => ?_⟩⟩
  rcases ht.achieved_or_failed with ⟨-, s, -, hachieved, -⟩ | ⟨hcode, -⟩
  · exact absurd hachieved.feasible hinfeasible
  · exact hcode

/-- Of ten replicas three can be moved, all at once, but not eleven. -/
theorem success_is_genuine_of_ten :
    let three := run (fun _ => none) ⟨7⟩ ["simulate", "--max-surge=3", "--replicas", "3"]
    let eleven := run (fun _ => none) ⟨7⟩ ["simulate", "--max-surge=3", "--replicas", "11"]
    (three.exitCode = 0 ∧ ∃ s, three.result = some s ∧ s.phase = .succeeded ∧
        s.counters = ⟨3, 3⟩ ∧
        three.outputText =
          "\x7b\n  \"id\": " ++ Json.compact (.str s.id.text) ++ ",\n  \"state\": \"Succeeded\"" ++
            ",\n  \"message\": " ++ Json.compact (.str s.message) ++
            ",\n  \"src_migrated_replicas\": " ++ "3" ++
            ",\n  \"dst_migrated_replicas\": " ++ "3" ++ "\n\x7d\n") ∧
      eleven.exitCode = 1 := by
  have hthree : parse ["simulate", "--max-surge=3", "--replicas", "3"] = .ok (.simulate none
      ⟨"default", "web", 10, 0, ⟨some 3, some 3, none, false⟩, 50, 300⟩) := by decide +kernel
  have heleven : parse ["simulate", "--max-surge=3", "--replicas", "11"] = .ok (.simulate none
      ⟨"default", "web", 10, 0, ⟨some 11, some 3, none, false⟩, 50, 300⟩) := by decide +kernel
  intro three eleven
  have hcode : three.exitCode = 0 := by decide +kernel
  obtain ⟨hrun, hall⟩ := success_is_genuine hthree
  obtain ⟨hrun', hall'⟩ := success_is_genuine heleven
  refine ⟨⟨hcode, ?_⟩, ?_⟩
  · rcases (hall three hrun).1 with ⟨-, s, hs, hachieved, htext⟩ | ⟨hfailed, -⟩
    · exact ⟨s, hs, hachieved.phase_eq, hachieved.counters_eq, htext⟩
    · exact absurd (hcode.symm.trans hfailed) (by decide)
  · refine (hall' eleven hrun').2 fun hfeasible => ?_
    exact absurd hfeasible.target_le_source (by decide)

end Command

end Handover
