import Handover.Controller
import Handover.Proofs.Platform.Calming

/-!
# What controllers bring about

A controller `Reads` the log of its kind. It `Expects` an object that is not done: it sleeps before
it settles the object, or has yet to read that the object was stored. So a controller that has
nothing left to do has left no object undone that it was told of (`Controller.Attends`). Its turns
settle objects and do nothing else (`Turn.exists_calming`), and each uses up some of the work before
it (`Turn.backlog_lt`).
-/

namespace Handover

/-- The latest specification is observed, and all that it declares is available. -/
def Workload.Done (w : Workload) : Prop :=
  w.isObserved = true ∧ w.isFullyAvailable = true

theorem Workload.done_of_settled {w : Workload} (h : w.status = w.settledStatus) : w.Done := by
  unfold Done isObserved isFullyAvailable
  rw [h]
  exact ⟨decide_eq_true rfl, decide_eq_true rfl⟩

/-- A log is part of all logs. -/
theorem Logs.size_get_le (logs : Logs) (kind : WorkloadKind) :
    (logs.get kind).size ≤ logs.size := by
  cases kind <;> simp only [Logs.size, WorkloadKind.all, List.foldl] <;> omega

namespace Controller

variable {c d : Controller} {p q : Platform} {now position begin : Nat} {r : ResourceRef}
  {events : List Event}

theorem isStale_eq_false_iff :
    isStale p r = false ↔ ∀ w, p.object? r = some w → w.Done := by
  unfold isStale Workload.Done
  cases p.object? r with
  | none => simp
  | some w => simp

/-! ## What a controller does -/

/-- A controller reads the log of its kind, at a position in it. -/
structure Reads (c : Controller) (p : Platform) (position : Nat) : Prop where
  receiver_eq : c.receiver = .following c.kind position
  le_size : position ≤ (p.logs.get c.kind).size

theorem reads_start (p : Platform) (delay : Nat) (kind : WorkloadKind) :
    (start p delay kind).Reads p (p.logs.get kind).size :=
  ⟨rfl, le_refl _⟩

theorem Reads.after_written (h : c.Reads p position) (hw : p.Written q events) :
    c.Reads q position := by
  have hsize := hw.size_log c.kind
  have hle := h.le_size
  exact ⟨h.receiver_eq, by omega⟩

/-- A step of a controller: it wakes and settles the object for which it has slept, it reads an
event and settles the object of it or goes to sleep or lets it be, or it has missed events and
settles every object of its kind. -/
inductive Turn (c : Controller) (p : Platform) (position : Nat) : Controller → Platform → Prop
  | wake (due : Nat) (r : ResourceRef) (h : c.asleep = some (due, r)) :
      Turn c p position { c with asleep := none } (p.settle r).2
  | skip (e : Event) (hawake : c.asleep = none) (he : (p.logs.get c.kind)[position]? = some e)
      (hdone : e.change = .deleted ∨ isStale p e.object.ref = false) :
      Turn c p position { c with receiver := .following c.kind (position + 1) } p
  | settle (e : Event) (hawake : c.asleep = none)
      (he : (p.logs.get c.kind)[position]? = some e) :
      Turn c p position { c with receiver := .following c.kind (position + 1) }
        (p.settle e.object.ref).2
  | doze (e : Event) (due : Nat) (hawake : c.asleep = none)
      (he : (p.logs.get c.kind)[position]? = some e) :
      Turn c p position
        { c with
          receiver := .following c.kind (position + 1)
          asleep := some (due, e.object.ref) } p
  | catchUp (oldest : Nat) (hawake : c.asleep = none) (hlt : position < oldest)
      (hle : oldest ≤ (p.logs.get c.kind).size) :
      Turn c p position { c with receiver := .following c.kind oldest } (p.settleKind c.kind).2

/-- A step of a controller leaves the platform alone, or reports statuses. -/
theorem exists_reports_of_step? (h : c.step? now p = some (d, q)) :
    q = p ∨ ∃ op : Platform.Operation, op.Reports ∧ q = op.apply p := by
  unfold Controller.step? Controller.onEvent at h
  split at h
  · next due r hasleep =>
    split at h
    · cases h
      exact .inr ⟨.settle r, trivial, rfl⟩
    · cases h
  · split at h
    · cases h
    · cases h
    · split at h
      · cases h
        exact .inl rfl
      split at h
      · cases h
        exact .inr ⟨.settle _, trivial, rfl⟩
      · cases h
        exact .inl rfl
    · cases h
      exact .inr ⟨.settleKind c.kind, trivial, rfl⟩

theorem evolves_step? (h : c.step? now p = some (d, q)) : p.Evolves q := by
  rcases exists_reports_of_step? h with rfl | ⟨op, -, rfl⟩
  · exact .refl q
  · exact op.evolves p

/-- What the log has for a controller. -/
theorem Reads.receive_cases (h : c.Reads p position) :
    (∃ missed oldest, position < oldest ∧ oldest ≤ (p.logs.get c.kind).size ∧
      p.receive c.receiver = .lagged missed (.following c.kind oldest)) ∨
    (∃ e, (p.logs.get c.kind)[position]? = some e ∧
      p.receive c.receiver = .event e (.following c.kind (position + 1))) ∨
    (p.logs.get c.kind).size = position ∧ p.receive c.receiver = .nothingYet := by
  rw [h.receiver_eq]
  exact p.receive_following_cases h.le_size

theorem turn_of_step? (h : c.Reads p position) (hstep : c.step? now p = some (d, q)) :
    c.Turn p position d q := by
  unfold step? at hstep
  cases hasleep : c.asleep with
  | some sleep =>
    obtain ⟨due, r⟩ := sleep
    rw [hasleep] at hstep
    dsimp only at hstep
    split at hstep
    · cases hstep
      exact .wake due r hasleep
    · cases hstep
  | none =>
    rw [hasleep] at hstep
    rcases h.receive_cases with ⟨missed, oldest, hlt, hle, hreceive⟩ | ⟨e, he, hreceive⟩ |
      ⟨-, hreceive⟩
    · rw [hreceive] at hstep
      cases hstep
      exact hasleep ▸ .catchUp oldest hasleep hlt hle
    · rw [hreceive] at hstep
      have hevent : onEvent now e { c with receiver := .following c.kind (position + 1) } p =
        (d, q) := by simpa [hasleep] using hstep
      unfold onEvent at hevent
      split at hevent
      · next hdone =>
        cases hevent
        exact hasleep ▸ .skip e hasleep he (hdone.imp_right Bool.eq_false_iff.2)
      split at hevent
      · cases hevent
        exact hasleep ▸ .settle e hasleep he
      · cases hevent
        exact .doze e _ hasleep he
    · rw [hreceive] at hstep
      cases hstep

/-- A controller that is awake and has no step to take has read the whole log. -/
theorem Reads.eq_size_of_step? (h : c.Reads p position) (hawake : c.asleep = none)
    (hstep : c.step? now p = none) : (p.logs.get c.kind).size = position := by
  unfold step? at hstep
  rw [hawake] at hstep
  rcases h.receive_cases with ⟨missed, oldest, -, -, hreceive⟩ | ⟨e, -, hreceive⟩ | ⟨hsize, -⟩
  · rw [hreceive] at hstep
    cases hstep
  · rw [hreceive] at hstep
    cases hstep
  · exact hsize

/-- A controller that sleeps can take a step once its time has come. -/
theorem step?_of_asleep {due : Nat} (h : c.asleep = some (due, r)) (hdue : due ≤ now) :
    (c.step? now p).isSome = true := by
  unfold step?
  rw [h]
  dsimp only
  rw [if_pos hdue]
  rfl

theorem Turn.kind_eq (h : c.Turn p position d q) : d.kind = c.kind := by
  cases h <;> rfl

/-! ## Steps settle objects -/

/-- A step of a controller settles objects or does nothing to the platform. -/
theorem Turn.exists_calming (h : c.Turn p position d q) (hp : p.Sound) :
    ∃ events, p.Calming q events := by
  have hsettle (r : ResourceRef) : ∃ events, p.Calming (p.settle r).2 events :=
    (Platform.exists_settlement_settle hp r).imp fun _ hsettlement => hsettlement.1.toCalming
  cases h with
  | wake due r hasleep => exact hsettle r
  | settle e hawake he => exact hsettle e.object.ref
  | catchUp oldest hawake hlt hle =>
    obtain ⟨events, hsettlement, -⟩ :=
      Platform.exists_settlement_settleEach hp (p.refsOfKind c.kind)
    exact ⟨events, hsettlement.toCalming⟩
  | skip e hawake he hdone => exact ⟨[], .refl p⟩
  | doze e due hawake he => exact ⟨[], .refl p⟩

/-- A step of a controller changes nothing of an object but its status and its version, and makes
none appear or disappear. -/
theorem Turn.map_object? (h : c.Turn p position d q) (hp : p.Sound) {α : Type} {f : Workload → α}
    (hf : Workload.Lasting f) (r : ResourceRef) :
    (q.object? r).map f = (p.object? r).map f := by
  cases h with
  | wake due s hasleep => exact Platform.map_object?_settle hf hp s r
  | settle e hawake he => exact Platform.map_object?_settle hf hp _ r
  | catchUp oldest hawake hlt hle => exact Platform.map_object?_settleEach hf hp _ r
  | skip e hawake he hdone => rfl
  | doze e due hawake he => rfl

/-! ## Attention -/

/-- A controller sleeps before it settles an object, or is still to read that it was stored. -/
def Expects (c : Controller) (p : Platform) (position : Nat) (r : ResourceRef) : Prop :=
  (∃ due, c.asleep = some (due, r)) ∨ p.Announces c.kind position r

/-- A controller reads the log of its kind and expects every object of the kind that the log has
told of and that is not done. -/
structure Attends (c : Controller) (p : Platform) (begin position : Nat) : Prop
    extends c.Reads p position where
  expects : ∀ r w, p.object? r = some w → r.kind? = some c.kind → p.Tells c.kind begin r →
    w.Done ∨ c.Expects p position r

theorem attends_start (p : Platform) (delay : Nat) (kind : WorkloadKind) :
    (start p delay kind).Attends p (p.logs.get kind).size (p.logs.get kind).size := by
  refine ⟨reads_start p delay kind, fun r w _ _ ⟨i, e, hi, he, _⟩ => ?_⟩
  -- nothing has been told yet
  have hlt : i < (p.logs.get kind).size := (Array.getElem?_eq_some_iff.1 he).1
  exact absurd hi (Nat.not_le_of_lt hlt)

/-- Whatever is written, a controller goes on to attend. -/
theorem Attends.after_written (h : c.Attends p begin position) (hw : p.Written q events) :
    c.Attends q begin position := by
  refine ⟨h.toReads.after_written hw, fun r w hobject hkind htells => ?_⟩
  rcases hw.kept_or_announced hkind hobject with ⟨hkept, htold⟩ | hannounced
  · rcases h.expects r w hkept hkind (htold begin htells) with hdone | hasleep | hunread
    · exact .inl hdone
    · exact .inr (.inl hasleep)
    · exact .inr (.inr (hunread.after_written hw))
  · exact .inr (.inr (hannounced.mono h.le_size))

/-- Reading an event uses up what is expected of its object only. -/
theorem Expects.of_read (h : c.Expects p position r) (hawake : c.asleep = none) {e : Event}
    (he : (p.logs.get c.kind)[position]? = some e) :
    (e.change ≠ .deleted ∧ e.object.ref = r) ∨ p.Announces c.kind (position + 1) r := by
  rcases h with ⟨due, hasleep⟩ | ⟨i, e', hi, he', hstored, hr⟩
  · rw [hawake] at hasleep
    cases hasleep
  · rcases Nat.eq_or_lt_of_le hi with rfl | hlt
    · rw [he] at he'
      cases he'
      exact .inl ⟨hstored, hr⟩
    · exact .inr ⟨i, e', hlt, he', hstored, hr⟩

theorem done_of_settledAt {w : Workload} (h : p.SettledAt r) (hw : p.object? r = some w) :
    w.Done :=
  Workload.done_of_settled (h w hw)

/-- A step of a controller keeps its attention. -/
theorem Attends.after_turn (h : c.Attends p begin position) (hp : p.Sound)
    (hturn : c.Turn p position d q) : ∃ position', d.Attends q begin position' := by
  obtain ⟨events, hcalming⟩ := hturn.exists_calming hp
  -- the controller as it was still attends to the platform as it is now
  have hbefore := h.after_written hcalming.written
  cases hturn with
  | wake due s hasleep =>
    refine ⟨position, ⟨hbefore.receiver_eq, hbefore.le_size⟩, fun r w hw hkind htells => ?_⟩
    rcases hbefore.expects r w hw hkind htells with hdone | ⟨due', hasleep'⟩ | hunread
    · exact .inl hdone
    · rw [hasleep] at hasleep'
      cases hasleep'
      exact .inl (done_of_settledAt (Platform.settling_settle hp s).2 hw)
    · exact .inr (.inr hunread)
  | skip e hawake he hdone =>
    have hlt := (Array.getElem?_eq_some_iff.1 he).1
    refine ⟨position + 1, ⟨rfl, hlt⟩, fun r w hw hkind htells => ?_⟩
    rcases hbefore.expects r w hw hkind htells with hfine | hexpects
    · exact .inl hfine
    · rcases hexpects.of_read hawake he with ⟨hstored, rfl⟩ | hunread
      · have hfresh := hdone.resolve_left hstored
        exact .inl (isStale_eq_false_iff.1 hfresh w hw)
      · exact .inr (.inr hunread)
  | settle e hawake he =>
    have hlt := (Array.getElem?_eq_some_iff.1 he).1
    have he' := (hcalming.written.getElem?_log hlt).trans he
    have hlt' := (Array.getElem?_eq_some_iff.1 he').1
    refine ⟨position + 1, ⟨rfl, hlt'⟩, fun r w hw hkind htells => ?_⟩
    rcases hbefore.expects r w hw hkind htells with hfine | hexpects
    · exact .inl hfine
    · rcases hexpects.of_read hawake he' with ⟨-, rfl⟩ | hunread
      · exact .inl (done_of_settledAt (Platform.settling_settle hp _).2 hw)
      · exact .inr (.inr hunread)
  | doze e due hawake he =>
    have hlt := (Array.getElem?_eq_some_iff.1 he).1
    refine ⟨position + 1, ⟨rfl, hlt⟩, fun r w hw hkind htells => ?_⟩
    rcases hbefore.expects r w hw hkind htells with hfine | hexpects
    · exact .inl hfine
    · rcases hexpects.of_read hawake he with ⟨-, rfl⟩ | hunread
      · exact .inr (.inl ⟨due, rfl⟩)
      · exact .inr (.inr hunread)
  | catchUp oldest hawake hlt hle =>
    have hsize := hcalming.written.size_log c.kind
    refine ⟨oldest, ⟨rfl, ?_⟩, fun r w hw hkind htells => ?_⟩
    · show oldest ≤ ((p.settleKind c.kind).2.logs.get c.kind).size
      omega
    · have hsettled := (Platform.settling_settleKind hp c.kind).2 r hkind
      exact .inl (done_of_settledAt hsettled hw)

/-- A controller that has nothing left to do has left nothing undone that it was told of. -/
theorem Attends.done_of_rest (h : c.Attends p begin position) (hawake : c.asleep = none)
    (hstep : c.step? now p = none) {w : Workload} (hw : p.object? r = some w)
    (hkind : r.kind? = some c.kind) (htells : p.Tells c.kind begin r) : w.Done := by
  rcases h.expects r w hw hkind htells with hdone | ⟨due, hasleep⟩ | ⟨i, e, hi, he, -⟩
  · exact hdone
  · rw [hawake] at hasleep
    cases hasleep
  · -- nothing is left to read
    have hlt := (Array.getElem?_eq_some_iff.1 he).1
    have hsize := h.eq_size_of_step? hawake hstep
    omega

/-! ## The work before a controller -/

/-- The number of events that a controller has not read. -/
def unread (c : Controller) (p : Platform) : Nat :=
  match c.receiver with
  | .closed => 0
  | .following kind position => (p.logs.get kind).size - position

/-- A measure of the work before a controller: two steps for each event that it has not read, and
one if it sleeps. -/
def backlog (c : Controller) (p : Platform) : Nat :=
  2 * c.unread p + c.asleep.isSome.toNat

theorem Reads.unread_eq (h : c.Reads p position) :
    c.unread p = (p.logs.get c.kind).size - position := by
  unfold unread
  rw [h.receiver_eq]

theorem unread_le (c : Controller) (p : Platform) : c.unread p ≤ p.logs.size := by
  unfold unread
  cases c.receiver with
  | closed => exact Nat.zero_le _
  | following kind position => exact (Nat.sub_le _ _).trans (p.logs.size_get_le kind)

/-- What is written adds to the work, two steps for each event. -/
theorem Reads.backlog_le (h : c.Reads p position) (hw : p.Written q events) :
    c.backlog q ≤ c.backlog p + 2 * events.length := by
  have hsize := hw.size_log c.kind
  have hle : (events.filter (·.object.kind = c.kind)).length ≤ events.length :=
    List.length_filter_le _ _
  unfold backlog
  rw [h.unread_eq, (h.after_written hw).unread_eq]
  omega

/-- A step of a controller uses up some of its work, and adds what it writes. -/
theorem Turn.backlog_lt (h : c.Turn p position d q) (hreads : c.Reads p position)
    (hw : p.Written q events) : d.backlog q < c.backlog p + 2 * events.length := by
  have hsize := hw.size_log c.kind
  have hle : (events.filter (·.object.kind = c.kind)).length ≤ events.length :=
    List.length_filter_le _ _
  have hunread := hreads.unread_eq
  unfold backlog
  cases h with
  | wake due r hasleep =>
    have hunread' := (hreads.after_written hw).unread_eq
    show 2 * c.unread _ + 0 < _
    rw [hunread', hunread, hasleep, Option.isSome_some, Bool.toNat_true]
    omega
  | skip e hawake he hdone =>
    have hlt := (Array.getElem?_eq_some_iff.1 he).1
    rw [hunread, hawake, unread]
    dsimp only
    omega
  | settle e hawake he =>
    have hlt := (Array.getElem?_eq_some_iff.1 he).1
    rw [hunread, hawake, unread]
    dsimp only
    omega
  | doze e due hawake he =>
    have hlt := (Array.getElem?_eq_some_iff.1 he).1
    rw [hunread, hawake, unread, Option.isSome_some, Option.isSome_none, Bool.toNat_true,
      Bool.toNat_false]
    dsimp only
    omega
  | catchUp oldest hawake hlt hle_size =>
    rw [hunread, hawake, unread]
    dsimp only
    omega

end Controller

end Handover
