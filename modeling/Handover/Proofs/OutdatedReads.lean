import Handover.Proofs.Platform.Declared

/-!
# Passes over outdated reads

A `Course` is a run in which the platform's earlier states are remembered. Its passes may read any
object that the platform has ever held, while others do anything to the platform. Even so a write
lands only on the object that was read, and moves nothing but its replica count by the planned
amount; a write of an object that was changed, recreated or deleted since is refused and changes
nothing. So what all passes together have added to the declared counts is what the counters say
(`Course.no_lost_update`).
-/

namespace Handover

/-- The declared count of the object under a reference, zero where there is none. -/
def Platform.declaredAt (p : Platform) (r : ResourceRef) : Int :=
  (p.declared? r).getD 0

/-- The error that meets an update based on an object that is no longer there. -/
def Platform.refusal (p : Platform) (w : Workload) : PlatformError :=
  match p.object? w.ref with
  | none => .notFound w.ref
  | some current =>
    .conflict w.ref w.metadata.resourceVersion current.metadata.resourceVersion

/-- A registry and a platform with its earlier states, the latest first, and what passes have added
to the declared count of each object. -/
structure Course where
  registry : Registry
  platform : Platform
  past : List Platform
  added : ResourceRef → Int

namespace Course

/-- A course on an empty platform. -/
def start (g : Registry) (capacity : Nat) : Course :=
  ⟨g, .empty capacity, [], fun _ => 0⟩

/-- Every state that the platform has been in, the latest first. -/
def states (c : Course) : List Platform :=
  c.platform :: c.past

/-- Reads of objects that the platform has held at some time; any read may also fail. -/
def Readable (c : Course) (read : ResourceRef → Except PlatformError Workload) : Prop :=
  ∀ r w, read r = .ok w → ∃ q ∈ c.states, q.object? r = some w

/-- An object was held at some time, and at a later time it was not there as it was. -/
def ChangedSince (c : Course) (r : ResourceRef) (w : Workload) : Prop :=
  ∃ newer q older, c.states = newer ++ q :: older ∧ q.object? r = some w ∧
    ∃ s ∈ newer, s.object? r ≠ some w

/-- The course after an operation of somebody else. -/
def operate (op : Platform.Operation) (c : Course) : Course :=
  { c with platform := op.apply c.platform, past := c.states }

/-- The course after a pass with given reads. -/
def pass (limit : Nat) (id : MigrationId) (now : Nat)
    (read : ResourceRef → Except PlatformError Workload) (c : Course) : Course :=
  let result := c.registry.reconcile (Platform.clientReading read) limit now id c.platform
  { registry := result.2.1
    platform := result.2.2
    past := c.states
    added := fun r => c.added r + (result.2.2.declaredAt r - c.platform.declaredAt r) }

/-- A step of a course: anything that others do, or a pass over the migration with reads of any
age, at whatever time. -/
inductive Step (limit : Nat) (id : MigrationId) (c : Course) : Course → Prop
  | operate (op : Platform.Operation) : Step limit id c (c.operate op)
  | pass (now : Nat) (read : ResourceRef → Except PlatformError Workload)
      (hread : c.Readable read) : Step limit id c (c.pass limit id now read)

/-- A course that steps lead to. -/
def Reach (limit : Nat) (id : MigrationId) : Course → Course → Prop :=
  Relation.ReflTransGen (Step limit id)

/-! ## What courses preserve -/

/-- The states of the platform follow from each other, and the migration is known, with counters
that say what its passes have added. -/
structure Inv (id : MigrationId) (src dst : ResourceRef) (c : Course) : Prop where
  sound : ∀ q ∈ c.states, q.Sound
  ordered : c.states.Pairwise fun later earlier => earlier.Evolves later
  known : ∃ m, c.registry.get? id = some m ∧ m.src = src ∧ m.dst = dst ∧
    m.counters.Within m.goal.replicas ∧
    ∀ side, c.added (m.refOf side) = side.change (m.counters.count side)

variable {limit : Nat} {id : MigrationId} {src dst : ResourceRef} {c d : Course}
  {read : ResourceRef → Except PlatformError Workload}

theorem Inv.evolves_of_mem (h : c.Inv id src dst) {q : Platform} (hq : q ∈ c.states) :
    q.Evolves c.platform := by
  rcases List.mem_cons.1 hq with rfl | hq
  · exact .refl _
  · exact (List.pairwise_cons.1 h.ordered).1 q hq

theorem Inv.held_of_readable (h : c.Inv id src dst) (hread : c.Readable read) (r : ResourceRef)
    (w : Workload) (hw : read r = .ok w) : c.platform.Held r w := by
  obtain ⟨q, hq, hstored⟩ := hread r w hw
  exact ⟨q, h.sound q hq, h.evolves_of_mem hq, hstored⟩

/-- A next state that the platform evolves to continues the history. -/
theorem Inv.history (h : c.Inv id src dst) {p : Platform} (hp : c.platform.Evolves p) :
    (∀ q ∈ p :: c.states, q.Sound) ∧
      (p :: c.states).Pairwise fun later earlier => earlier.Evolves later := by
  have hsound : p.Sound := hp.sound (h.sound _ List.mem_cons_self)
  refine ⟨fun q hq => ?_, List.pairwise_cons.2 ⟨fun q hq => ?_, h.ordered⟩⟩
  · rcases List.mem_cons.1 hq with rfl | hq
    · exact hsound
    · exact h.sound q hq
  · exact (h.evolves_of_mem hq).trans hp

/-- The registry after a pass concludes the migration, and the platform is that of the pass. -/
theorem pass_of_get? (limit : Nat) {m : Migration} (hm : c.registry.get? id = some m) (now : Nat)
    (read : ResourceRef → Except PlatformError Workload) :
    let result := m.pass (Platform.clientReading read) limit now c.platform
    (c.pass limit id now read).registry.get? id = some (m.conclude now result.1) ∧
      (c.pass limit id now read).platform = result.2 :=
  Registry.reconcile_of_get? hm (Platform.clientReading read) limit now c.platform

/-- What a pass adds to the declared count of a side's object is what it adds to the side's
counter. -/
theorem added_pass {m : Migration} (hm : c.registry.get? id = some m) (hne : m.src ≠ m.dst)
    (hwithin : m.counters.Within m.goal.replicas)
    (hread : ∀ r w, read r = .ok w → c.platform.Held r w) (now : Nat) (side : Side)
    (hadded : c.added (m.refOf side) = side.change (m.counters.count side)) :
    (c.pass limit id now read).added (m.refOf side) =
      side.change ((m.conclude now
        (m.pass (Platform.clientReading read) limit now c.platform).1).counters.count side) := by
  have hplatform := (pass_of_get? limit hm now read).2
  show c.added (m.refOf side) + ((c.pass limit id now read).platform.declaredAt (m.refOf side) -
    c.platform.declaredAt (m.refOf side)) = _
  rw [hplatform, hadded]
  unfold Platform.declaredAt
  rcases Migration.declared?_pass_held hread hne hwithin limit now side with
    ⟨hdeclared, hcount⟩ | ⟨k, n, hk, hdeclared, hcount⟩
  · rw [hdeclared, hcount]
    omega
  · rw [hdeclared, hcount, hk, Side.change_add, Option.getD_some, Option.getD_some]
    omega

theorem Inv.step (h : c.Inv id src dst) (hne : src ≠ dst) (hstep : Step limit id c d) :
    d.Inv id src dst := by
  obtain ⟨m, hm, rfl, rfl, hwithin, hadded⟩ := h.known
  cases hstep with
  | operate op =>
    obtain ⟨hsound, hordered⟩ := h.history (op.evolves c.platform)
    exact ⟨hsound, hordered, m, hm, rfl, rfl, hwithin, hadded⟩
  | pass now read hread =>
    have hheld := h.held_of_readable hread
    obtain ⟨hregistry, hplatform⟩ := pass_of_get? limit hm now read
    have hevolves : c.platform.Evolves (c.pass limit id now read).platform :=
      hplatform ▸ Migration.evolves_pass_reading read limit now m c.platform
    obtain ⟨hsound, hordered⟩ := h.history hevolves
    refine ⟨hsound, hordered, _, hregistry, Migration.src_conclude .., Migration.dst_conclude ..,
      ?_, fun side => ?_⟩
    · rw [Migration.goal_conclude]
      exact Migration.within_conclude_pass hwithin _ limit now c.platform
    · rw [Migration.refOf_conclude]
      exact added_pass hm hne hwithin hheld now side (hadded side)

theorem Reach.inv (h : c.Inv id src dst) (hne : src ≠ dst) (hreach : Reach limit id c d) :
    d.Inv id src dst := by
  induction hreach with
  | refl => exact h
  | tail _ hstep ih => exact ih.step hne hstep

/-- A course starts with a migration that has not moved anything. -/
theorem inv_start {g : Registry} {m : Migration} (capacity : Nat) (hm : g.get? id = some m)
    (hcounters : m.counters = .zero) : (start g capacity).Inv id m.src m.dst := by
  refine ⟨fun q hq => ?_, List.pairwise_singleton _ _, m, hm, rfl, rfl, .inl hcounters,
    fun side => ?_⟩
  · rw [List.mem_singleton.1 hq]
    exact Platform.sound_empty capacity
  · rw [hcounters]
    cases side <;> rfl

/-! ## One pass -/

/-- What has come of a pass that landed a write: the object that is stored now is the one that was
stored just before, with its replica count moved by the planned amount, the next generation and a
version that no object had before; and the counter of that side alone has grown by the amount. -/
structure Landed (c c' : Course) (m m' : Migration)
    (read : ResourceRef → Except PlatformError Workload) (side : Side) (n : Int) : Prop where
  one_le : 1 ≤ n
  planned : ∃ src dst, read m.src = .ok src ∧ read m.dst = .ok dst ∧
    plan m.goal.replicas m.goal.maxSurge m.counters (Migration.observe src dst) = side.step n
  object : ∃ w version, c.platform.object? (m.refOf side) = some w ∧
    c'.platform.object? (m.refOf side) =
      some ((w.withReplicas (some (w.declared + side.change n))).stamped
        w.nextGeneration version) ∧
    ∀ q ∈ c.states, ∀ r v, q.object? r = some v → v.metadata.resourceVersion < version
  others : ∀ r, r ≠ m.refOf side → c'.platform.object? r = c.platform.object? r
  counters : m'.counters = m.counters.after (side.step n)

/-- What has come of a pass whose write was refused: the update met the error for objects that are
no longer there, the pass judges that error, and neither the platform nor a counter has changed; the
failed write is counted if the object is there at all. -/
structure Refused (c c' : Course) (m m' : Migration) (limit : Nat) (v : Verdict) (side : Side)
    (n : Int) (w : Workload) : Prop where
  update : c.platform.update (w.moved side n) = (.error (c.platform.refusal w), c.platform)
  verdict : v = m.onWriteError limit (m.refOf side) (c.platform.refusal w)
  platform : c'.platform = c.platform
  counters : m'.counters = m.counters
  failures : m'.writeFailures =
    if (c.platform.refusal w).retryable then keptCount (m.writeFailures + 1) else m.writeFailures

/-- A version that is still to come is later than all versions there have been. -/
theorem Inv.version_lt (h : c.Inv id src dst) {q : Platform} (hq : q ∈ c.states) {r : ResourceRef}
    {v : Workload} (hv : q.object? r = some v) :
    v.metadata.resourceVersion < c.platform.nextVersion := by
  have hlt := (h.sound q hq).version_lt r v hv
  have hle := Platform.Evolves.nextVersion_le (h.evolves_of_mem hq)
  omega

/-- A write that landed has moved the replica count of the stored object and nothing else. -/
theorem Inv.landed (h : c.Inv id src dst) {m : Migration}
    (hwithin : m.counters.Within m.goal.replicas) (hm : c.registry.get? id = some m)
    (hread : c.Readable read) {now : Nat} {side : Side} {n generation : Int}
    (hv : (m.pass (Platform.clientReading read) limit now c.platform).1 =
      .landed side n generation) :
    Landed c (c.pass limit id now read) m
      (m.conclude now (m.pass (Platform.clientReading read) limit now c.platform).1) read side
      n := by
  have hplatform := (pass_of_get? limit hm now read).2
  rcases Migration.pass_held_cases (h.held_of_readable hread) limit now m with
    ⟨-, hverdict⟩ | ⟨a, b, side', n', -, ha, hb, hintent, hpos, href, hstored, hpass⟩
  · rw [hv] at hverdict
    cases hverdict
  rw [hpass] at hv hplatform
  obtain ⟨rfl, rfl, -⟩ : side' = side ∧ n' = n ∧ _ = generation := by simpa using hv
  have hplan := (Migration.intent_eq_write_iff.1 hintent).2.1
  refine ⟨hpos, ⟨a, b, ha, hb, hplan⟩, ?_, fun r hr => ?_, ?_⟩
  · refine ⟨side'.pick a b, c.platform.nextVersion, hstored, ?_, fun q hq r v => h.version_lt hq⟩
    rw [hplatform, Platform.object?_store, Workload.ref_stamped, Workload.ref_moved, href,
      if_pos rfl]
    rfl
  · rw [hplatform, Platform.object?_store, Workload.ref_stamped, Workload.ref_moved, href,
      if_neg hr]
  · rw [hpass, Migration.counters_conclude_landed hwithin hintent]

/-- An object that was changed since never has its version again. -/
theorem Inv.version_ne (h : c.Inv id src dst) {r : ResourceRef} {w current : Workload}
    (hchanged : c.ChangedSince r w) (hcurrent : c.platform.object? r = some current) :
    current.metadata.resourceVersion ≠ w.metadata.resourceVersion := by
  obtain ⟨newer, q, older, hstates, hq, s, hs, hne⟩ := hchanged
  have hordered := h.ordered
  rw [hstates, List.pairwise_append] at hordered
  -- the object was as read in `q`, was not in the later state `s`, and is stored now
  have hqs : q.Evolves s := hordered.2.2 s hs q List.mem_cons_self
  have hs_mem : s ∈ c.states := by
    rw [hstates]
    exact List.mem_append_left _ hs
  have hq_mem : q ∈ c.states := by
    rw [hstates]
    exact List.mem_append_right _ List.mem_cons_self
  exact Platform.version_ne_of_changed (h.sound q hq_mem) hq hqs hne (h.evolves_of_mem hs_mem)
    hcurrent

/-- An update based on an object that was changed or deleted since is refused. -/
theorem Inv.update_of_changedSince (h : c.Inv id src dst) {w : Workload}
    (hfailures : c.platform.failures = []) (hchanged : c.ChangedSince w.ref w) (side : Side)
    (n : Int) :
    c.platform.update (w.moved side n) = (.error (c.platform.refusal w), c.platform) := by
  rw [Platform.update_eq, Platform.refusal, hfailures, Workload.ref_moved]
  cases hcurrent : c.platform.object? w.ref with
  | none => rfl
  | some current =>
    have hversion := h.version_ne hchanged hcurrent
    exact if_pos hversion

/-- A pass that writes an object that was changed or deleted since is refused and changes nothing.
-/
theorem Inv.refused (h : c.Inv id src dst) {m : Migration} (hm : c.registry.get? id = some m)
    (hread : c.Readable read) {now : Nat} {a b : Workload} {side : Side} {n : Int}
    (hopen : m.isOpen now = true) (ha : read m.src = .ok a) (hb : read m.dst = .ok b)
    (hintent : m.intent a b = .write side n) (hfailures : c.platform.failures = [])
    (hchanged : c.ChangedSince (m.refOf side) (side.pick a b)) :
    let v := (m.pass (Platform.clientReading read) limit now c.platform).1
    Refused c (c.pass limit id now read) m (m.conclude now v) limit v side n (side.pick a b) := by
  intro v
  have hplatform := (pass_of_get? limit hm now read).2
  have href : (side.pick a b).ref = m.refOf side := by
    cases side with
    | src => exact (h.held_of_readable hread m.src a ha).ref_eq
    | dst => exact (h.held_of_readable hread m.dst b hb).ref_eq
  -- what to write is decided by the reads, and refused by the platform as it is
  have hupdate := h.update_of_changedSince hfailures (href ▸ hchanged) side n
  have hpass : m.pass (Platform.clientReading read) limit now c.platform =
      (m.onWriteError limit (m.refOf side) (c.platform.refusal (side.pick a b)), c.platform) := by
    rw [Migration.pass_reading_of_ok hopen ha hb, hintent]
    show m.move (Platform.clientReading read) limit side n (side.pick a b) c.platform = _
    have hupdate : (Platform.clientReading read).update ((side.pick a b).moved side n) c.platform =
      (.error (c.platform.refusal (side.pick a b)), c.platform) := hupdate
    rw [Migration.move_eq, hupdate, href]
  have hv : v = m.onWriteError limit (m.refOf side) (c.platform.refusal (side.pick a b)) :=
    congrArg Prod.fst hpass
  refine ⟨hupdate, hv, hplatform.trans (congrArg Prod.snd hpass), ?_, ?_⟩
  · rw [hv]
    exact Migration.counters_conclude_of_not_isLanded (m.isLanded_onWriteError limit _ _) m now
  · rw [hv]
    exact Migration.writeFailures_conclude_onWriteError m limit now _ _

end Course

end Handover
