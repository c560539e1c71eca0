import Handover.Proofs.Controller
import Handover.System
import Mathlib.Tactic.Ring

/-!
# Controllers come to rest

A system whose migrator does nothing, with controllers: others try operations on the platform, time
passes, and the controllers take their turns in any order. Every controller goes on to attend to its
kind (`System.Tended`), so when none has anything left to do all that they were told of is done.
When nobody else changes anything any more, the controllers write of each object at most once, and
the work before them runs out (`System.Tended.exists_calming`).
-/

namespace Handover

/-- Something that happens to a system while its migrator does nothing: an operation is tried from
outside, time passes, or it is a controller's turn. -/
inductive Incident where
  | operate (op : Platform.Operation)
  | elapse (milliseconds : Nat)
  | control (index : Nat)

/-- Nothing happens from outside. -/
def Incident.isCalm : Incident → Bool
  | operate _ => false
  | elapse _ | control _ => true

namespace System

/-- The system after an incident. A controller that can do nothing lets its turn pass. -/
def meet (y : System) : Incident → System
  | .operate op => y.onPlatform fun p => op.apply p
  | .elapse milliseconds => { y with now := y.now + milliseconds }
  | .control index => (y.perform (.controller index)).getD y

/-- The system after some incidents. -/
def meetAll (y : System) (incidents : List Incident) : System :=
  incidents.foldl meet y

/-- Whether it is the turn of a controller that can do something. -/
def acts (y : System) : Incident → Bool
  | .control index => (y.perform (.controller index)).isSome
  | .operate _ | .elapse _ => false

/-- How often controllers do something. -/
def actions (y : System) : List Incident → Nat
  | [] => 0
  | incident :: rest => (y.acts incident).toNat + (y.meet incident).actions rest

/-- No controller sleeps or has a step to take. -/
def AtRest (y : System) : Prop :=
  ∀ c ∈ y.controllers, c.asleep = none ∧ c.step? y.now y.platform = none

instance (y : System) : Decidable y.AtRest :=
  decidable_of_iff
    (∀ c ∈ y.controllers, c.asleep = none ∧ (c.step? y.now y.platform).isNone = true)
    (by simp only [AtRest, Option.isNone_iff_eq_none])

/-- A sound platform to which every controller attends since the logs had some sizes. -/
structure Tended (begin : WorkloadKind → Nat) (y : System) : Prop where
  sound : y.platform.Sound
  attends : ∀ c ∈ y.controllers, ∃ position, c.Attends y.platform (begin c.kind) position

variable {y z : System} {begin : WorkloadKind → Nat} {incidents rest : List Incident} {index : Nat}

theorem actions_append (y : System) (incidents rest : List Incident) :
    y.actions (incidents ++ rest) = y.actions incidents + (y.meetAll incidents).actions rest := by
  induction incidents generalizing y with
  | nil => exact (Nat.zero_add _).symm
  | cons incident others ih =>
    show (y.acts incident).toNat + (y.meet incident).actions (others ++ rest) = _
    rw [ih, ← Nat.add_assoc]
    rfl

/-- A turn in which something is done is a step of a controller. -/
theorem exists_of_perform_controller (h : y.perform (.controller index) = some z) :
    ∃ c d q, y.controllers[index]? = some c ∧ c.step? y.now y.platform = some (d, q) ∧
      z = { y with controllers := y.controllers.set index d, platform := q } := by
  simp only [perform, Option.bind_eq_bind, Option.bind_eq_some_iff] at h
  obtain ⟨c, hc, ⟨d, q⟩, hstep, hz⟩ := h
  exact ⟨c, d, q, hc, hstep, (Option.some.inj hz).symm⟩

/-- In a turn nothing is done and nothing changes, or it is the system that the turn leads to. -/
theorem meet_control_cases (y : System) (index : Nat) :
    (y.acts (.control index) = false ∧ y.meet (.control index) = y) ∨
      (y.acts (.control index) = true ∧
        y.perform (.controller index) = some (y.meet (.control index))) := by
  simp only [acts, meet]
  cases y.perform (.controller index) with
  | none => exact .inl ⟨rfl, rfl⟩
  | some z => exact .inr ⟨rfl, rfl⟩

/-! ## Attention -/

/-- Who starts controllers has their kinds tended. -/
theorem tended_simulate (hp : y.platform.Sound) (kinds : List WorkloadKind) (delay : Nat) :
    (y.simulate kinds delay).Tended fun kind => (y.platform.logs.get kind).size := by
  refine ⟨hp, fun c hc => ?_⟩
  obtain ⟨kind, -, rfl⟩ := List.mem_map.1 hc
  exact ⟨_, Controller.attends_start y.platform delay kind⟩

/-- A turn in which something is done settles objects, and keeps a system tended. -/
theorem Tended.perform_controller (h : y.Tended begin)
    (hz : y.perform (.controller index) = some z) :
    ∃ c d position, y.controllers[index]? = some c ∧ c.Reads y.platform position ∧
      c.Turn y.platform position d z.platform ∧ z.controllers = y.controllers.set index d ∧
      z.Tended begin := by
  obtain ⟨c, d, q, hc, hstep, rfl⟩ := exists_of_perform_controller hz
  have hmem := List.mem_of_getElem? hc
  obtain ⟨position, hattends⟩ := h.attends c hmem
  have hturn := Controller.turn_of_step? hattends.toReads hstep
  obtain ⟨events, hcalming⟩ := hturn.exists_calming h.sound
  have hevolves := Controller.evolves_step? hstep
  refine ⟨c, d, position, hc, hattends.toReads, hturn, rfl, hevolves.sound h.sound, ?_⟩
  intro b hb
  rcases List.mem_or_eq_of_mem_set hb with hb | rfl
  · obtain ⟨position', hattends'⟩ := h.attends b hb
    exact ⟨position', hattends'.after_written hcalming.written⟩
  · obtain ⟨position', hattends'⟩ := hattends.after_turn h.sound hturn
    exact ⟨position', hturn.kind_eq ▸ hattends'⟩

/-- Whatever happens, the controllers go on to attend to their kinds. -/
theorem Tended.meet (h : y.Tended begin) (incident : Incident) :
    (y.meet incident).Tended begin := by
  cases incident with
  | operate op =>
    obtain ⟨events, hwritten, -⟩ := op.exists_written h.sound
    refine ⟨(op.evolves y.platform).sound h.sound, fun c hc => ?_⟩
    obtain ⟨position, hattends⟩ := h.attends c hc
    exact ⟨position, hattends.after_written hwritten⟩
  | elapse milliseconds => exact ⟨h.sound, h.attends⟩
  | control index =>
    rcases y.meet_control_cases index with ⟨-, hsame⟩ | ⟨-, hperform⟩
    · rw [hsame]
      exact h
    · obtain ⟨-, -, -, -, -, -, -, hnext⟩ := h.perform_controller hperform
      exact hnext

theorem Tended.meetAll (h : y.Tended begin) (incidents : List Incident) :
    (y.meetAll incidents).Tended begin := by
  induction incidents generalizing y with
  | nil => exact h
  | cons incident rest ih => exact ih (h.meet incident)

/-- The controllers stay those of the same kinds. -/
theorem Tended.kinds_meet (h : y.Tended begin) (incident : Incident) :
    (y.meet incident).controllers.map (·.kind) = y.controllers.map (·.kind) := by
  cases incident with
  | operate op => rfl
  | elapse milliseconds => rfl
  | control index =>
    rcases y.meet_control_cases index with ⟨-, hsame⟩ | ⟨-, hperform⟩
    · rw [hsame]
    · obtain ⟨c, d, position, hc, -, hturn, hset, -⟩ := h.perform_controller hperform
      rw [hset, List.map_set, hturn.kind_eq]
      -- the controller that has taken its turn is still of its kind
      have hkind : (y.controllers.map (·.kind))[index]? = some c.kind := by
        rw [List.getElem?_map, hc, Option.map_some]
      obtain ⟨hlt, hget⟩ := List.getElem?_eq_some_iff.1 hkind
      rw [← hget, List.set_getElem_self]

theorem Tended.kinds_meetAll (h : y.Tended begin) (incidents : List Incident) :
    (y.meetAll incidents).controllers.map (·.kind) = y.controllers.map (·.kind) := by
  induction incidents generalizing y with
  | nil => rfl
  | cons incident rest ih => exact (ih (h.meet incident)).trans (h.kinds_meet incident)

/-! ## Turns -/

/-- The work before all controllers. -/
def backlog (y : System) : Nat :=
  (y.controllers.map (·.backlog y.platform)).sum

section Sums

variable {α : Type} {f g : α → Nat} {k : Nat} {l : List α}

theorem sum_map_le_add (h : ∀ x ∈ l, g x ≤ f x + k) :
    (l.map g).sum ≤ (l.map f).sum + k * l.length := by
  induction l with
  | nil => exact Nat.zero_le _
  | cons x rest ih =>
    have hx := h x List.mem_cons_self
    have hrest := ih fun y hy => h y (List.mem_cons_of_mem _ hy)
    simp only [List.map_cons, List.sum_cons, List.length_cons, Nat.mul_add]
    omega

/-- Where every entry of a list counts for at most so much more, and one is replaced by another that
counts for less than that, so does the sum. -/
theorem sum_map_set_lt {i : Nat} {a b : α} (ha : l[i]? = some a) (hb : g b < f a + k)
    (h : ∀ x ∈ l, g x ≤ f x + k) : ((l.set i b).map g).sum < (l.map f).sum + k * l.length := by
  induction l generalizing i with
  | nil => cases ha
  | cons x rest ih =>
    have hx := h x List.mem_cons_self
    have hrest : ∀ y ∈ rest, g y ≤ f y + k := fun y hy => h y (List.mem_cons_of_mem _ hy)
    cases i with
    | zero =>
      obtain rfl : x = a := by simpa using ha
      have hsum := sum_map_le_add hrest
      simp only [List.set_cons_zero, List.map_cons, List.sum_cons, List.length_cons, Nat.mul_add]
      omega
    | succ i =>
      have hsum := ih (by simpa using ha) hrest
      simp only [List.set_cons_succ, List.map_cons, List.sum_cons, List.length_cons, Nat.mul_add]
      omega

end Sums

/-- A turn in which something is done uses up some of the work, and adds what it writes. -/
theorem Tended.backlog_lt (h : y.Tended begin) (hz : y.perform (.controller index) = some z) :
    ∃ events, y.platform.Calming z.platform events ∧
      z.backlog < y.backlog + 2 * events.length * y.controllers.length ∧
      z.controllers.length = y.controllers.length := by
  obtain ⟨c, d, position, hc, hreads, hturn, hset, -⟩ := h.perform_controller hz
  obtain ⟨events, hcalming⟩ := hturn.exists_calming h.sound
  refine ⟨events, hcalming, ?_, by rw [hset, List.length_set]⟩
  unfold backlog
  rw [hset]
  refine sum_map_set_lt hc (hturn.backlog_lt hreads hcalming.written) fun b hb => ?_
  obtain ⟨position', hattends⟩ := h.attends b hb
  exact hattends.toReads.backlog_le hcalming.written

/-- While nothing happens from outside, controllers settle objects, and each time they do something
they use up some of the work. -/
theorem Tended.exists_calming (h : y.Tended begin) (hcalm : ∀ i ∈ incidents, i.isCalm = true) :
    ∃ events, y.platform.Calming (y.meetAll incidents).platform events ∧
      (y.meetAll incidents).backlog + y.actions incidents ≤
        y.backlog + 2 * events.length * y.controllers.length := by
  induction incidents generalizing y with
  | nil => exact ⟨[], .refl _, Nat.le_add_right _ _⟩
  | cons incident rest ih =>
    obtain ⟨hfirst, hrest⟩ := List.forall_mem_cons.1 hcalm
    obtain ⟨later, hlater, hbacklog⟩ := ih (h.meet incident) hrest
    show ∃ events, y.platform.Calming ((y.meet incident).meetAll rest).platform events ∧
      ((y.meet incident).meetAll rest).backlog + ((y.acts incident).toNat +
        (y.meet incident).actions rest) ≤ _
    cases incident with
    | operate op => cases hfirst
    | elapse milliseconds =>
      refine ⟨later, hlater, ?_⟩
      rw [acts, Bool.toNat_false, Nat.zero_add]
      exact hbacklog
    | control index =>
      rcases y.meet_control_cases index with ⟨hacts, hsame⟩ | ⟨hacts, hperform⟩
      · rw [hsame] at hlater hbacklog ⊢
        refine ⟨later, hlater, ?_⟩
        rw [hacts, Bool.toNat_false, Nat.zero_add]
        exact hbacklog
      · obtain ⟨events, hcalming, hlt, hlength⟩ := h.backlog_lt hperform
        refine ⟨events ++ later, hcalming.trans hlater, ?_⟩
        rw [hlength] at hbacklog
        rw [hacts, Bool.toNat_true, List.length_append, Nat.mul_add, Nat.add_mul]
        omega

/-- How much work can be before the controllers of a system, at most. -/
theorem backlog_le (y : System) :
    y.backlog ≤ (2 * y.platform.logs.size + 1) * y.controllers.length := by
  have hle : ∀ c ∈ y.controllers, c.backlog y.platform ≤ 0 + (2 * y.platform.logs.size + 1) := by
    intro c _
    have hunread := c.unread_le y.platform
    have hasleep := Bool.toNat_le c.asleep.isSome
    unfold Controller.backlog
    omega
  have hsum := sum_map_le_add hle
  rw [List.map_const', List.sum_replicate_nat, Nat.mul_zero, Nat.zero_add] at hsum
  exact hsum

/-- While nothing happens from outside, controllers do only so much. -/
theorem Tended.actions_le (h : y.Tended begin) (hcalm : ∀ i ∈ incidents, i.isCalm = true) :
    y.actions incidents ≤ 2 * controllerWeight y.controllers y.platform := by
  obtain ⟨events, hcalming, hbacklog⟩ := h.exists_calming hcalm
  have hevents : events.length ≤ y.platform.objects.size := hcalming.length_le
  have hinitial := y.backlog_le
  calc y.actions incidents
      ≤ y.backlog + 2 * events.length * y.controllers.length := by omega
    _ ≤ (2 * y.platform.logs.size + 1) * y.controllers.length +
          2 * y.platform.objects.size * y.controllers.length := by gcongr
    _ = (2 * (y.platform.logs.size + y.platform.objects.size) + 1) * y.controllers.length := by ring
    _ ≤ (2 * (y.platform.logs.size + y.platform.objects.size) + 2) * y.controllers.length := by
        gcongr
        omega
    _ = 2 * controllerWeight y.controllers y.platform := by
        unfold controllerWeight
        ring

/-! ## Rest -/

/-- A system that is not at rest has a controller that can do something, if need be after some
time. -/
theorem exists_acts_of_not_atRest (h : ¬ y.AtRest) :
    ∃ incidents : List Incident, (∀ i ∈ incidents, i.isCalm = true) ∧ 0 < y.actions incidents := by
  obtain ⟨c, hc⟩ := Classical.not_forall.1 h
  obtain ⟨hmem, hbusy⟩ := Classical.not_imp.1 hc
  obtain ⟨index, hindex⟩ := List.mem_iff_getElem?.1 hmem
  have hacts : ∀ z : System, z.controllers[index]? = some c →
      (c.step? z.now z.platform).isSome = true → z.acts (.control index) = true := by
    intro z hz hstep
    obtain ⟨⟨d, q⟩, hstep⟩ := Option.isSome_iff_exists.1 hstep
    simp only [acts, perform, Option.bind_eq_bind, hz, Option.bind_some, hstep]
    rfl
  cases hasleep : c.asleep with
  | some sleep =>
    obtain ⟨due, r⟩ := sleep
    refine ⟨[.elapse due, .control index], by simp [Incident.isCalm], ?_⟩
    have hlater := hacts (y.meet (.elapse due)) hindex
      (Controller.step?_of_asleep hasleep (Nat.le_add_left due y.now))
    simp [actions, hlater]
  | none =>
    have hstep : (c.step? y.now y.platform).isSome = true := by
      rw [Option.isSome_iff_ne_none]
      exact fun hnone => hbusy ⟨hasleep, hnone⟩
    refine ⟨[.control index], by simp [Incident.isCalm], ?_⟩
    simp [actions, hacts y hindex hstep]

/-- While nothing happens from outside, a system can come to rest. -/
theorem Tended.exists_atRest (h : y.Tended begin) :
    ∃ incidents : List Incident, (∀ i ∈ incidents, i.isCalm = true) ∧
      (y.meetAll incidents).AtRest := by
  by_contra hnever
  -- otherwise controllers could do any number of things, one after the other
  have hmany : ∀ n, ∃ incidents : List Incident, (∀ i ∈ incidents, i.isCalm = true) ∧
      n ≤ y.actions incidents := by
    intro n
    induction n with
    | zero => exact ⟨[], by simp, Nat.zero_le _⟩
    | succ n ih =>
      obtain ⟨incidents, hcalm, hn⟩ := ih
      have hbusy : ¬ (y.meetAll incidents).AtRest := fun hrest =>
        hnever ⟨incidents, hcalm, hrest⟩
      obtain ⟨more, hmore, hacts⟩ := exists_acts_of_not_atRest hbusy
      refine ⟨incidents ++ more, List.forall_mem_append.2 ⟨hcalm, hmore⟩, ?_⟩
      rw [actions_append]
      omega
  obtain ⟨incidents, hcalm, hlt⟩ := hmany (2 * controllerWeight y.controllers y.platform + 1)
  have hle := h.actions_le hcalm
  omega

/-! ## Whole runs -/

/-- Whatever a platform has been through, whatever its capacity and the delay of the controllers,
and whatever others do to it while the controllers take their turns at any times: when no controller
sleeps or has a step to take, every object of their kinds that an event has told of since they
started is observed and fully available. A controller's turn leaves all there is, and changes
nothing of an object but its status and its version. From any moment on at which others stop, events
are written of each object at most once, and an object without such an event stays as it is; the
controllers do something only so often, and they can come to rest. -/
theorem controllers_converge (settings : Settings) (capacity : Nat) (firstId : MigrationId)
    (before : List Platform.Operation) (kinds : List WorkloadKind) (delay : Nat)
    (incidents : List Incident) :
    let y := (start settings capacity firstId).onPlatform fun p => p.after before
    let z := (y.simulate kinds delay).meetAll incidents
    (z.AtRest → ∀ kind ∈ kinds, ∀ r w, z.platform.object? r = some w → w.kind = kind →
      z.platform.Tells kind (y.platform.logs.get kind).size r →
        w.isObserved = true ∧ w.isFullyAvailable = true) ∧
    (∀ index r, ((z.meet (.control index)).platform.object? r).map Workload.unreported =
      (z.platform.object? r).map Workload.unreported) ∧
    (∀ calm : List Incident, (∀ i ∈ calm, i.isCalm = true) →
      (∃ events, z.platform.Written (z.meetAll calm).platform events ∧
        (events.map (·.object.ref)).Nodup ∧
        ∀ r, r ∉ events.map (·.object.ref) →
          (z.meetAll calm).platform.object? r = z.platform.object? r) ∧
      z.actions calm ≤ 2 * controllerWeight z.controllers z.platform) ∧
    ∃ calm : List Incident, (∀ i ∈ calm, i.isCalm = true) ∧ (z.meetAll calm).AtRest := by
  intro y z
  have hp : y.platform.Sound := Platform.sound_after capacity before
  have hstart := tended_simulate hp kinds delay
  have hz : z.Tended fun kind => (y.platform.logs.get kind).size := hstart.meetAll incidents
  refine ⟨?_, ?_, ?_, hz.exists_atRest⟩
  · rintro hrest kind hkind r w hw rfl htells
    have hr : r.kind? = some w.kind := hz.sound.ref_eq r w hw ▸ w.kind?_ref
    -- there is a controller for the kind
    have hkinds : z.controllers.map (·.kind) = kinds := by
      rw [hstart.kinds_meetAll incidents]
      show (kinds.map (Controller.start y.platform delay)).map (·.kind) = kinds
      rw [List.map_map]
      exact List.map_id kinds
    rw [← hkinds] at hkind
    obtain ⟨c, hc, hck⟩ := List.mem_map.1 hkind
    obtain ⟨position, hattends⟩ := hz.attends c hc
    obtain ⟨hawake, hstep⟩ := hrest c hc
    exact hattends.done_of_rest hawake hstep hw (hck ▸ hr) (hck ▸ htells)
  · intro index r
    rcases z.meet_control_cases index with ⟨-, hsame⟩ | ⟨-, hperform⟩
    · rw [hsame]
    · obtain ⟨c, d, position, -, -, hturn, -, -⟩ := hz.perform_controller hperform
      exact hturn.map_object? hz.sound Workload.lasting_unreported r
  · intro calm hcalm
    obtain ⟨events, hcalming, -⟩ := hz.exists_calming hcalm
    refine ⟨⟨events, hcalming.written, hcalming.once, fun r hr => ?_⟩, hz.actions_le hcalm⟩
    unfold Platform.object?
    rw [hcalming.written.objects_eq]
    exact get?_foldl_applyTo_of_ne fun e he href => hr (href ▸ List.mem_map_of_mem he)

/-- The platform retains two events. While the controller sleeps before it settles a deployment,
that one is deleted and created again, and another one is put. The controller misses an event of
these; both deployments are done when it rests. -/
theorem controllers_converge_recreated :
    let web := (Workload.named .deployment "default" "web").withReplicas (some 3)
    let api := (Workload.named .deployment "default" "api").withReplicas (some 2)
    let incidents : List Incident :=
      [.operate (.put web), .control 0, .operate (.delete web.ref .orphan), .operate (.create web),
        .operate (.put api), .elapse 5, .control 0, .control 0, .control 0, .control 0, .control 0]
    let y := (start .default 2 ⟨1⟩).onPlatform fun p => p.after []
    let z := (y.simulate [.deployment] 5).meetAll incidents
    z.AtRest ∧ ∀ name ∈ ["web", "api"], ∃ w, w.metadata.name = name ∧
      z.platform.object? w.ref = some w ∧ w.isObserved = true ∧ w.isFullyAvailable = true := by
  intro web api incidents y z
  have hrest : z.AtRest := by decide +kernel
  have hweb : z.platform.object? web.ref = some ((web.withStatus ⟨1, 3, 3⟩).stamped 1 4) := by
    decide +kernel
  have hapi : z.platform.object? api.ref = some ((api.withStatus ⟨1, 2, 2⟩).stamped 1 5) := by
    decide +kernel
  have htold : ∀ w ∈ [web, api], z.platform.Tells .deployment
      (y.platform.logs.get .deployment).size w.ref := by
    have hevents : (z.platform.logs.get .deployment)[0]? = some ⟨.added, web.stamped 1 1⟩ ∧
        (z.platform.logs.get .deployment)[3]? = some ⟨.added, api.stamped 1 3⟩ := by
      decide +kernel
    have hbegin : (y.platform.logs.get .deployment).size = 0 := by decide +kernel
    rw [hbegin]
    intro w hw
    rcases List.mem_cons.1 hw with rfl | hw
    · exact ⟨0, _, Nat.zero_le _, hevents.1, rfl⟩
    · obtain rfl := List.mem_singleton.1 hw
      exact ⟨3, _, Nat.zero_le _, hevents.2, rfl⟩
  clear_value incidents
  obtain ⟨hdone, -⟩ := controllers_converge .default 2 ⟨1⟩ [] [.deployment] 5 incidents
  have hdone := hdone hrest .deployment List.mem_cons_self
  refine ⟨hrest, fun name hname => ?_⟩
  rcases List.mem_cons.1 hname with rfl | hname
  · exact ⟨_, rfl, hweb, hdone web.ref _ hweb rfl (htold web (by simp))⟩
  · obtain rfl := List.mem_singleton.1 hname
    exact ⟨_, rfl, hapi, hdone api.ref _ hapi rfl (htold api (by simp))⟩

end System

end Handover
