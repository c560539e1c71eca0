import Handover.Proofs.Platform.Effects
import Handover.Proofs.Platform.News
import Handover.Proofs.Platform.Reports
import Mathlib.Data.List.Pairwise

/-!
# What is written

Whatever is done to a platform writes events that say all of it: applied one after the other they
lead from the objects before to the objects after (`Written`). An event says that its object was
added just if it was not there (`Marked`), and the versions in the events grow. Every operation
writes such events (`Operation.exists_written`), and so does a sequence of them.
-/

namespace Handover

/-- A table of objects after an event. -/
def Event.applyTo (t : Table ResourceRef Workload) (e : Event) : Table ResourceRef Workload :=
  match e.change with
  | .added | .modified => t.insert e.object.ref e.object
  | .deleted => t.erase e.object.ref

/-- The objects that events lead to, from none. -/
def replay (events : List Event) : Table ResourceRef Workload :=
  events.foldl Event.applyTo .empty

/-- The versions of the objects that events store. -/
def storedVersions (events : List Event) : List Nat :=
  (events.filter (·.change ≠ .deleted)).map (·.object.metadata.resourceVersion)

theorem storedVersions_append (events later : List Event) :
    storedVersions (events ++ later) = storedVersions events ++ storedVersions later := by
  rw [storedVersions, List.filter_append, List.map_append]
  rfl

theorem storedVersions_sublist {events later : List Event} (h : events.Sublist later) :
    (storedVersions events).Sublist (storedVersions later) :=
  (h.filter _).map _

/-- An event is about its object only. -/
theorem Event.get?_applyTo_of_ne (t : Table ResourceRef Workload) {e : Event} {r : ResourceRef}
    (h : r ≠ e.object.ref) : (e.applyTo t).get? r = t.get? r := by
  unfold applyTo
  cases e.change with
  | added => exact (Table.get?_insert t _ r _).trans (if_neg h)
  | modified => exact (Table.get?_insert t _ r _).trans (if_neg h)
  | deleted => exact (Table.get?_erase t _ r).trans (if_neg h)

/-- What an event makes of an object does not depend on the others. -/
theorem Event.get?_applyTo_congr {t u : Table ResourceRef Workload} {r : ResourceRef}
    (h : t.get? r = u.get? r) (e : Event) : (e.applyTo t).get? r = (e.applyTo u).get? r := by
  by_cases hr : r = e.object.ref
  · unfold applyTo
    cases e.change <;> simp only [Table.get?_insert, Table.get?_erase, if_pos hr]
  · rw [e.get?_applyTo_of_ne t hr, e.get?_applyTo_of_ne u hr, h]

/-- The events of a kind lead to the objects of that kind that all events lead to. -/
theorem get?_foldl_applyTo_filter {t u : Table ResourceRef Workload} {kind : WorkloadKind}
    {r : ResourceRef} (hkind : r.kind? = some kind) (h : t.get? r = u.get? r)
    (events : List Event) :
    ((events.filter (·.object.kind = kind)).foldl Event.applyTo t).get? r =
      (events.foldl Event.applyTo u).get? r := by
  induction events generalizing t u with
  | nil => exact h
  | cons e rest ih =>
    by_cases he : e.object.kind = kind
    · rw [List.filter_cons_of_pos (by simpa using he)]
      exact ih (e.get?_applyTo_congr h)
    · rw [List.filter_cons_of_neg (by simpa using he)]
      -- an event of another kind is about another object
      have hr : r ≠ e.object.ref := by
        rintro rfl
        exact he (Option.some.inj (e.object.kind?_ref.symm.trans hkind))
      exact ih (h.trans (e.get?_applyTo_of_ne u hr).symm)

/-- Events about other objects leave an object as it is. -/
theorem get?_foldl_applyTo_of_ne {t : Table ResourceRef Workload} {r : ResourceRef}
    {events : List Event} (h : ∀ e ∈ events, e.object.ref ≠ r) :
    (events.foldl Event.applyTo t).get? r = t.get? r := by
  induction events generalizing t with
  | nil => rfl
  | cons e rest ih =>
    have hr : r ≠ e.object.ref := Ne.symm (h e List.mem_cons_self)
    have hrest : ∀ e ∈ rest, e.object.ref ≠ r := fun e he => h e (List.mem_cons_of_mem _ he)
    exact (ih hrest).trans (e.get?_applyTo_of_ne t hr)

/-- The replay of the events of a kind has the objects of that kind that the replay of all events
has. -/
theorem get?_replay_filter (kind : WorkloadKind) (r : ResourceRef) (events : List Event) :
    (replay (events.filter (·.object.kind = kind))).get? r =
      if r.kind? = some kind then (replay events).get? r else none := by
  split
  · next hkind => exact get?_foldl_applyTo_filter hkind rfl events
  · next hkind =>
    -- events of this kind are about no object of another one
    refine get?_foldl_applyTo_of_ne fun e he hr => hkind ?_
    rw [← hr, e.object.kind?_ref, of_decide_eq_true (List.mem_filter.1 he).2]

namespace Platform

variable {p q s : Platform} {events later : List Event}

/-- A platform becomes another one, and these events are written about it. -/
structure Written (p q : Platform) (events : List Event) : Prop where
  log_eq : ∀ kind, (q.logs.get kind).toList =
    (p.logs.get kind).toList ++ events.filter (·.object.kind = kind)
  objects_eq : q.objects = events.foldl Event.applyTo p.objects
  nextVersion_le : p.nextVersion ≤ q.nextVersion
  versions : ∀ n ∈ storedVersions events, p.nextVersion ≤ n ∧ n < q.nextVersion
  increasing : (storedVersions events).Pairwise (· < ·)

/-- Events say that an object was added just if the platform does not have it. -/
def Marked (p : Platform) (events : List Event) : Prop :=
  ∀ e ∈ events, e.change = .added ↔ p.object? e.object.ref = none

theorem written_nil (h : q.objects = p.objects) (hlogs : q.logs = p.logs)
    (hversion : q.nextVersion = p.nextVersion) : p.Written q [] where
  log_eq kind := by rw [hlogs, List.filter_nil, List.append_nil]
  objects_eq := h
  nextVersion_le := hversion.ge
  versions n hn := nomatch hn
  increasing := .nil

theorem Written.trans (h : p.Written q events) (h' : q.Written s later) :
    p.Written s (events ++ later) where
  log_eq kind := by rw [h'.log_eq, h.log_eq, List.filter_append, List.append_assoc]
  objects_eq := by rw [h'.objects_eq, h.objects_eq, List.foldl_append]
  nextVersion_le := h.nextVersion_le.trans h'.nextVersion_le
  versions n hn := by
    have hpq := h.nextVersion_le
    have hqs := h'.nextVersion_le
    rw [storedVersions_append] at hn
    rcases List.mem_append.1 hn with hn | hn
    · have hrange := h.versions n hn
      exact ⟨hrange.1, by omega⟩
    · have hrange := h'.versions n hn
      exact ⟨by omega, hrange.2⟩
  increasing := by
    rw [storedVersions_append, List.pairwise_append]
    refine ⟨h.increasing, h'.increasing, fun n hn m hm => ?_⟩
    -- the versions that were given out first are below those that were still to come
    have hfirst := h.versions n hn
    have hsecond := h'.versions m hm
    omega

/-! ## Effects are written -/

/-- The events about an effect. -/
def Effect.news (p : Platform) : Effect → List Event
  | nothing => []
  | store change w => [⟨change, w.stamped w.metadata.generation p.nextVersion⟩]
  | remove _ w _ => [⟨.deleted, w⟩]

/-- A log to which one event has been written. -/
theorem toList_get_emit (logs : Logs) (change : Change) (w : Workload) (kind : WorkloadKind) :
    ((logs.emit change w).get kind).toList =
      (logs.get kind).toList ++ [(⟨change, w⟩ : Event)].filter (·.object.kind = kind) := by
  rw [Logs.get_emit]
  by_cases h : kind = w.kind
  · rw [if_pos h, Array.toList_push, List.filter_cons_of_pos (by simpa using h.symm),
      List.filter_nil]
  · rw [if_neg h, List.filter_cons_of_neg (by simpa using Ne.symm h), List.filter_nil,
      List.append_nil]

/-- Every effect is written. -/
theorem Effect.written {e : Effect} {r : ResourceRef} {current : Option Workload}
    (h : e.At r current) (hcurrent : ∀ w, current = some w → w.ref = r) :
    p.Written (e.run p) (e.news p) := by
  cases e with
  | nothing => exact written_nil rfl rfl rfl
  | store change w =>
    obtain ⟨-, hchange, -⟩ := h
    have hversions : storedVersions [⟨change, w.stamped w.metadata.generation p.nextVersion⟩] =
        [p.nextVersion] := by
      simp [storedVersions, hchange, Workload.stamped]
    refine ⟨fun kind => toList_get_emit _ _ _ kind, ?_, Nat.le_succ _, ?_, ?_⟩
    · cases change with
      | added => rfl
      | modified => rfl
      | deleted => exact absurd rfl hchange
    · intro n hn
      obtain rfl : n = p.nextVersion := by simpa [news, hversions] using hn
      exact ⟨le_refl _, Nat.lt_succ_self _⟩
    · rw [news, hversions]
      exact List.pairwise_singleton _ _
  | remove s w propagation =>
    obtain ⟨rfl, hw⟩ := h
    have hversions : storedVersions [(⟨.deleted, w⟩ : Event)] = [] := by simp [storedVersions]
    refine ⟨fun kind => toList_get_emit _ _ _ kind, ?_, le_refl _, ?_, ?_⟩
    · show p.objects.erase s = p.objects.erase w.ref
      rw [hcurrent w hw]
    · intro n hn
      rw [news, hversions] at hn
      cases hn
    · rw [news, hversions]
      exact .nil

theorem Effect.marked {e : Effect} {r : ResourceRef} (h : e.At r (p.object? r))
    (hcurrent : ∀ w, p.object? r = some w → w.ref = r) : p.Marked (e.news p) := by
  cases e with
  | nothing => exact fun e he => nomatch he
  | store change w =>
    obtain ⟨rfl, -, hadded⟩ := h
    exact List.forall_mem_singleton.2 hadded
  | remove s w propagation =>
    obtain ⟨rfl, hw⟩ := h
    refine List.forall_mem_singleton.2 ?_
    dsimp only
    rw [hcurrent w hw, hw]
    simp

/-! ## Operations are written -/

/-- Marks depend on which objects are there only. -/
theorem Marked.of_map (h : q.Marked events)
    (hsame : ∀ r, (q.object? r).map (fun _ => ()) = (p.object? r).map fun _ => ()) :
    p.Marked events := by
  intro e he
  rw [h e he, ← Option.map_eq_none_iff (f := fun _ => ()), hsame, Option.map_eq_none_iff]

theorem exists_written_of_ref? (op : Operation) {r : ResourceRef} (hp : p.Sound)
    (h : op.ref? = some r) (hfailures : ∀ w, op = .update w → p.failures = []) :
    ∃ events, p.Written (op.apply p) events ∧ p.Marked events := by
  have hat := op.effect_at h (hp.ref_eq r)
  rw [op.apply_eq_run h hfailures]
  exact ⟨_, Effect.written hat (hp.ref_eq r), Effect.marked hat (hp.ref_eq r)⟩

theorem exists_written_settleEach (hp : p.Sound) (refs : List ResourceRef) :
    ∃ events, p.Written (p.settleEach refs).2 events ∧ p.Marked events := by
  induction refs generalizing p with
  | nil => exact ⟨[], written_nil rfl rfl rfl, fun e he => nomatch he⟩
  | cons r rest ih =>
    obtain ⟨first, hfirst, hfirst_marked⟩ :=
      exists_written_of_ref? (.settle r) hp rfl (by simp)
    obtain ⟨others, hothers, hothers_marked⟩ := ih ((evolves_settle p r).sound hp)
    refine ⟨first ++ others, hfirst.trans hothers, ?_⟩
    have hsame := map_object?_settle (f := fun _ => ()) (fun _ _ _ => rfl) hp r
    exact List.forall_mem_append.2 ⟨hfirst_marked, hothers_marked.of_map hsame⟩

theorem exists_written_settleKinds (hp : p.Sound) (kinds : List WorkloadKind) :
    ∃ events, p.Written (p.settleKinds kinds).2 events ∧ p.Marked events := by
  induction kinds generalizing p with
  | nil => exact ⟨[], written_nil rfl rfl rfl, fun e he => nomatch he⟩
  | cons kind rest ih =>
    obtain ⟨first, hfirst, hfirst_marked⟩ := exists_written_settleEach hp (p.refsOfKind kind)
    obtain ⟨others, hothers, hothers_marked⟩ := ih ((evolves_settleKind p kind).sound hp)
    refine ⟨first ++ others, hfirst.trans hothers, ?_⟩
    have hsame := map_object?_settleEach (f := fun _ => ()) (fun _ _ _ => rfl) hp
      (p.refsOfKind kind)
    exact List.forall_mem_append.2 ⟨hfirst_marked, hothers_marked.of_map hsame⟩

/-- Every operation is written, whatever it answers. -/
theorem Operation.exists_written (op : Operation) (hp : p.Sound) :
    ∃ events, p.Written (op.apply p) events ∧ p.Marked events := by
  cases op with
  | put w => exact exists_written_of_ref? _ hp rfl (by simp)
  | setStatus r status => exact exists_written_of_ref? _ hp rfl (by simp)
  | settle r => exact exists_written_of_ref? _ hp rfl (by simp)
  | create w => exact exists_written_of_ref? _ hp rfl (by simp)
  | delete r propagation => exact exists_written_of_ref? _ hp rfl (by simp)
  | settleKind kind => exact exists_written_settleEach hp _
  | settleAll => exact exists_written_settleKinds hp _
  | failNextUpdates e count => exact ⟨[], written_nil rfl rfl rfl, fun e he => nomatch he⟩
  | update w =>
    cases hfailures : p.failures with
    | nil => exact exists_written_of_ref? _ hp rfl fun _ _ => hfailures
    | cons e rest =>
      refine ⟨[], ?_, fun e he => nomatch he⟩
      show p.Written (p.update w).2 []
      rw [update_eq, hfailures]
      exact written_nil rfl rfl rfl

/-- A sequence of operations is written. -/
theorem exists_written_after (hp : p.Sound) (ops : List Operation) :
    ∃ events, p.Written (p.after ops) events := by
  induction ops generalizing p with
  | nil => exact ⟨[], written_nil rfl rfl rfl⟩
  | cons op rest ih =>
    obtain ⟨first, hfirst, -⟩ := op.exists_written hp
    obtain ⟨others, hothers⟩ := ih ((op.evolves p).sound hp)
    exact ⟨first ++ others, hfirst.trans hothers⟩

end Platform

end Handover
