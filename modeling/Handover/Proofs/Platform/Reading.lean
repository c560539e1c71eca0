import Handover.Client
import Handover.Proofs.Pass.Counters
import Handover.Proofs.Platform.Versions

/-!
# Passes on a platform

`Platform.clientReading` is the client of a platform whose reads are given: they may be outdated,
while writes reach the platform as it is. A pass with `Platform.client` is a pass whose reads are
the platform's current answers (`Migration.pass_client`). A pass changes the platform by its update
alone (`Migration.pass_reading_cases`), and an update of an object that is still what was read moves
its replica count and nothing else (`Platform.update_moved`).
-/

namespace Handover

/-! ## Given reads -/

/-- The client of a platform whose reads are answered as given. -/
def Platform.clientReading (read : ResourceRef → Except PlatformError Workload) :
    Client Platform :=
  { Platform.client with get := fun r p => (read r, p) }

namespace Migration

/-- Given reads leave the platform alone. -/
theorem readBoth_reading (m : Migration) (read : ResourceRef → Except PlatformError Workload)
    (p : Platform) :
    m.readBoth (Platform.clientReading read) p =
      ((read m.src).bind fun src => (read m.dst).map fun dst => (src, dst), p) := by
  unfold readBoth
  simp only [Platform.clientReading]
  cases read m.src with
  | error e => rfl
  | ok src => cases read m.dst <;> rfl

theorem readBoth_client (m : Migration) (p : Platform) :
    m.readBoth Platform.client p = m.readBoth (Platform.clientReading p.get) p := by
  rw [readBoth_reading]
  unfold readBoth
  simp only [Platform.client]
  cases p.get m.src with
  | error e => rfl
  | ok src =>
    dsimp only
    cases p.get m.dst <;> rfl

/-- A pass on a platform is a pass that reads its current answers. -/
theorem pass_client (m : Migration) (limit now : Nat) (p : Platform) :
    m.pass Platform.client limit now p = m.pass (Platform.clientReading p.get) limit now p := by
  unfold pass
  rw [readBoth_client]
  rfl

/-- A pass over an open migration that has read two objects carries out its intent. -/
theorem pass_reading_of_ok {read : ResourceRef → Except PlatformError Workload} {m : Migration}
    {now : Nat} {src dst : Workload} (hopen : m.isOpen now = true) (hsrc : read m.src = .ok src)
    (hdst : read m.dst = .ok dst) (limit : Nat) (p : Platform) :
    m.pass (Platform.clientReading read) limit now p =
      match m.intent src dst with
      | .settle v => (v, p)
      | .write side n =>
        m.move (Platform.clientReading read) limit side n (side.pick src dst) p := by
  rw [pass_of_isOpen hopen, readBoth_reading, hsrc, hdst]
  exact proceed_eq (Platform.clientReading read) limit m src dst p

/-- All that a pass with given reads does to a platform: nothing, or one update. -/
theorem pass_reading_cases (read : ResourceRef → Except PlatformError Workload)
    (limit now : Nat) (m : Migration) (p : Platform) :
    (∃ v : Verdict, v.isWriteless = true ∧
      m.pass (Platform.clientReading read) limit now p = (v, p)) ∨
    ∃ src dst side n, m.isOpen now = true ∧ read m.src = .ok src ∧ read m.dst = .ok dst ∧
      m.intent src dst = .write side n ∧
      m.pass (Platform.clientReading read) limit now p =
        m.move (Platform.clientReading read) limit side n (side.pick src dst) p := by
  rcases pass_cases (Platform.clientReading read) limit now m p with
    ⟨v, p', hv, hstate, hpass⟩ | ⟨src, dst, p', side, n, hopen, hread, hintent, hpass⟩
  · refine .inl ⟨v, hv, ?_⟩
    rw [readBoth_reading, or_self] at hstate
    rw [hpass, hstate]
  · rw [readBoth_reading, Prod.mk.injEq] at hread
    obtain ⟨hread, rfl⟩ := hread
    cases hsrc : read m.src with
    | error e => rw [hsrc] at hread; cases hread
    | ok src' =>
      cases hdst : read m.dst with
      | error e => rw [hsrc, hdst] at hread; cases hread
      | ok dst' =>
        rw [hsrc, hdst] at hread
        cases hread
        exact .inr ⟨src, dst, side, n, hopen, rfl, rfl, hintent, hpass⟩

/-- A write leaves the platform as its update does. -/
theorem move_reading_snd (read : ResourceRef → Except PlatformError Workload) (limit : Nat)
    (m : Migration) (side : Side) (n : Int) (object : Workload) (p : Platform) :
    (m.move (Platform.clientReading read) limit side n object p).2 =
      (p.update (object.moved side n)).2 := by
  rcases move_cases (Platform.clientReading read) limit m side n object p with
    ⟨written, p', hupdate, hmove⟩ | ⟨e, p', hupdate, hmove⟩
  · rw [hmove]
    exact (congrArg Prod.snd hupdate).symm
  · rw [hmove]
    exact (congrArg Prod.snd hupdate).symm

/-- A pass evolves the platform. -/
theorem evolves_pass_reading (read : ResourceRef → Except PlatformError Workload)
    (limit now : Nat) (m : Migration) (p : Platform) :
    p.Evolves (m.pass (Platform.clientReading read) limit now p).2 := by
  rcases pass_reading_cases read limit now m p with
    ⟨v, -, hpass⟩ | ⟨src, dst, side, n, -, -, -, -, hpass⟩
  · rw [hpass]
    exact .refl p
  · rw [hpass, move_reading_snd]
    exact Platform.evolves_update p _

end Migration

/-! ## Updates -/

namespace Workload

/-- A count that moves is a change of the specification. -/
theorem agrees_moved (w : Workload) {side : Side} {n : Int} (hn : 0 < n) :
    (w.moved side n).spec.agrees w.spec = false := by
  unfold Spec.agrees
  rw [decide_eq_false_iff_not]
  -- if the two agreed, the count would be what it was before it moved
  intro h
  have hreplicas : some (w.declared + side.change n) = w.spec.replicas := congrArg Spec.replicas h
  have hchange : side.change n ≠ 0 := by cases side <;> simp only [Side.change] <;> omega
  have hdeclared : w.declared = w.spec.replicas.getD 0 := rfl
  rw [← hreplicas, Option.getD_some] at hdeclared
  omega

end Workload

namespace Platform

/-- Moving the replica count of an object as it is changes its specification, so it gets the next
generation. -/
theorem revision_moved (p : Platform) (w : Workload) {side : Side} {n : Int} (hn : 0 < n) :
    p.revision w (w.moved side n) =
      (w.moved side n).stamped w.nextGeneration p.nextVersion := by
  rw [revision, Workload.agrees_moved w hn, if_neg Bool.false_ne_true]
  rfl

/-- An accepted update of an object that is still what was read moves its replica count and gives it
the next generation and the next version; nothing else of it changes. -/
theorem update_moved {p p' : Platform} {w written : Workload} {side : Side} {n : Int}
    (hn : 0 < n) (hw : p.object? w.ref = some w)
    (h : p.update (w.moved side n) = (.ok written, p')) :
    p' = p.store .modified written ∧
      written = (w.moved side n).stamped w.nextGeneration p.nextVersion := by
  obtain ⟨current, hcurrent, -, hwritten, hstore⟩ := of_update_eq_ok h
  rw [Workload.ref_moved, hw] at hcurrent
  cases hcurrent
  exact ⟨hstore, hwritten.trans (p.revision_moved w hn)⟩

end Platform

/-! ## Reads of objects that have been there -/

namespace Platform

/-- An object that is or was stored under a reference, on the way to this platform. -/
def Held (p : Platform) (r : ResourceRef) (w : Workload) : Prop :=
  ∃ q : Platform, q.Sound ∧ q.Evolves p ∧ q.object? r = some w

theorem Held.ref_eq {p : Platform} {r : ResourceRef} {w : Workload} (h : p.Held r w) :
    w.ref = r := by
  obtain ⟨q, hsound, -, hw⟩ := h
  exact hsound.ref_eq r w hw

theorem held_of_object? {p : Platform} (hp : p.Sound) {r : ResourceRef} {w : Workload}
    (h : p.object? r = some w) : p.Held r w :=
  ⟨p, hp, .refl p, h⟩

theorem object?_of_get {p : Platform} {r : ResourceRef} {w : Workload} (h : p.get r = .ok w) :
    p.object? r = some w := by
  unfold get at h
  cases hw : p.object? r with
  | none => rw [hw] at h; cases h
  | some v => rw [hw] at h; cases h; rfl

theorem get_of_object? {p : Platform} {r : ResourceRef} {w : Workload} (h : p.object? r = some w) :
    p.get r = .ok w := by
  unfold get
  rw [h]

/-- Reads of a platform as it is are reads of objects that have been there. -/
theorem held_of_get {p : Platform} (hp : p.Sound) (r : ResourceRef) (w : Workload)
    (h : p.get r = .ok w) : p.Held r w :=
  held_of_object? hp (object?_of_get h)

/-- An update based on an object that was there is accepted only while the object is as it was. -/
theorem Held.object?_of_update {p p' : Platform} {r : ResourceRef} {w written : Workload}
    {side : Side} {n : Int} (hw : p.Held r w)
    (h : p.update (w.moved side n) = (.ok written, p')) : p.object? r = some w := by
  obtain ⟨q, hsound, hevolves, hstored⟩ := hw
  have hr : w.ref = r := hsound.ref_eq r w hstored
  obtain ⟨current, hcurrent, hversion, -⟩ := of_update_eq_ok h
  rw [Workload.ref_moved, hr] at hcurrent
  rw [hcurrent, eq_of_version_eq hsound hstored hevolves hcurrent hversion]

end Platform

namespace Migration

/-- What a pass does if all it reads has been there at some time: nothing to any object or counter,
or one write of an object that is still what was read, by the planned amount. -/
theorem pass_held_cases {read : ResourceRef → Except PlatformError Workload} {p : Platform}
    (hread : ∀ r w, read r = .ok w → p.Held r w) (limit now : Nat) (m : Migration) :
    ((m.pass (Platform.clientReading read) limit now p).2.objects = p.objects ∧
      (m.pass (Platform.clientReading read) limit now p).1.isLanded = false) ∨
    ∃ src dst side n, m.isOpen now = true ∧ read m.src = .ok src ∧ read m.dst = .ok dst ∧
      m.intent src dst = .write side n ∧ 0 < n ∧ (side.pick src dst).ref = m.refOf side ∧
      p.object? (m.refOf side) = some (side.pick src dst) ∧
      m.pass (Platform.clientReading read) limit now p =
        (.landed side n (side.pick src dst).nextGeneration,
          p.store .modified (((side.pick src dst).moved side n).stamped
            (side.pick src dst).nextGeneration p.nextVersion)) := by
  rcases pass_reading_cases read limit now m p with
    ⟨v, hv, hpass⟩ | ⟨src, dst, side, n, hopen, hsrc, hdst, hintent, hpass⟩
  · rw [hpass]
    exact .inl ⟨rfl, Verdict.isLanded_of_isWriteless hv⟩
  · have hheld : p.Held (m.refOf side) (side.pick src dst) := by
      cases side with
      | src => exact hread m.src src hsrc
      | dst => exact hread m.dst dst hdst
    rcases move_cases (Platform.clientReading read) limit m side n (side.pick src dst) p with
      ⟨written, p', hupdate, hmove⟩ | ⟨e, p', hupdate, hmove⟩
    · have hpos : 0 < n := Side.pos_of_plan_eq (intent_eq_write_iff.1 hintent).2.1
      -- an accepted update has found the very object that was read
      have hstill := hheld.object?_of_update hupdate
      obtain ⟨rfl, rfl⟩ := Platform.update_moved hpos (hheld.ref_eq ▸ hstill) hupdate
      exact .inr ⟨src, dst, side, n, hopen, hsrc, hdst, hintent, hpos, hheld.ref_eq, hstill,
        hpass.trans hmove⟩
    · rw [hpass, hmove]
      exact .inl ⟨Platform.objects_of_update_eq_error hupdate, isLanded_onWriteError m limit _ e⟩

end Migration

end Handover
