import Handover.Proofs.Platform.Settled
import Handover.Proofs.Platform.Written
import Mathlib.Data.List.Perm.Subperm

/-!
# Announcements and calming

An object that exists was last written of as stored: whoever follows the log and finds that an
object is not as it was has been told so (`Written.kept_or_announced`). Settling is `Calming`: it
writes of each object at most once, of settled ones not at all, and what it has written of is
settled. So the events of any amount of settling are no more than the objects there are
(`Calming.length_le`). They tell of the objects as they are in the end, and nothing else is touched
(`Settlement`); the answer is how many they are (`exists_settlement_settleEach`).
-/

namespace Handover

/-- An object that events have left there is none of theirs, or one of them has stored it. -/
theorem ne_or_stored_of_get?_foldl {t : Table ResourceRef Workload} {r : ResourceRef}
    {w : Workload} {events : List Event} (h : (events.foldl Event.applyTo t).get? r = some w) :
    (∀ e ∈ events, e.object.ref ≠ r) ∨
      ∃ e ∈ events, e.change ≠ .deleted ∧ e.object.ref = r := by
  induction events generalizing t with
  | nil => exact .inl fun e he => nomatch he
  | cons e rest ih =>
    rcases ih h with hnone | ⟨e', he', hstored⟩
    · by_cases hr : e.object.ref = r
      · -- the first event is the last one about the object, so it has not deleted it
        have hget := (get?_foldl_applyTo_of_ne hnone).symm.trans h
        refine .inr ⟨e, List.mem_cons_self, fun hdeleted => ?_, hr⟩
        rw [Event.applyTo, hdeleted, Table.get?_erase, if_pos hr.symm] at hget
        cases hget
      · exact .inl (List.forall_mem_cons.2 ⟨hr, hnone⟩)
    · exact .inr ⟨e', List.mem_cons_of_mem _ he', hstored⟩

namespace Platform

variable {p q s : Platform} {events later : List Event} {kind : WorkloadKind} {position : Nat}
  {r : ResourceRef} {w : Workload}

/-! ## Announcements -/

/-- The log of a kind has an event at a position or later that stores an object. -/
def Announces (p : Platform) (kind : WorkloadKind) (position : Nat) (r : ResourceRef) : Prop :=
  ∃ i e, position ≤ i ∧ (p.logs.get kind)[i]? = some e ∧ e.change ≠ .deleted ∧ e.object.ref = r

theorem Announces.mono {earlier : Nat} (h : p.Announces kind position r)
    (hle : earlier ≤ position) : p.Announces kind earlier r := by
  obtain ⟨i, e, hi, he⟩ := h
  exact ⟨i, e, hle.trans hi, he⟩

theorem Written.size_log (h : p.Written q events) (kind : WorkloadKind) :
    (q.logs.get kind).size =
      (p.logs.get kind).size + (events.filter (·.object.kind = kind)).length := by
  have hlength := congrArg List.length (h.log_eq kind)
  rwa [List.length_append, Array.length_toList, Array.length_toList] at hlength

/-- Events stay where they are in the log. -/
theorem Written.getElem?_log (h : p.Written q events) {i : Nat}
    (hi : i < (p.logs.get kind).size) :
    (q.logs.get kind)[i]? = (p.logs.get kind)[i]? := by
  rw [← Array.getElem?_toList, h.log_eq, List.getElem?_append_left hi, Array.getElem?_toList]

theorem Announces.after_written (h : p.Announces kind position r) (hw : p.Written q events) :
    q.Announces kind position r := by
  obtain ⟨i, e, hi, he, hstored⟩ := h
  have hlt : i < (p.logs.get kind).size := (Array.getElem?_eq_some_iff.1 he).1
  exact ⟨i, e, hi, (hw.getElem?_log hlt).trans he, hstored⟩

/-- An object that is there is as it was, with nothing new told of it, or it has been announced. -/
theorem Written.kept_or_announced (h : p.Written q events) (hkind : r.kind? = some kind)
    (hobject : q.object? r = some w) :
    (p.object? r = some w ∧ ∀ position, q.Tells kind position r → p.Tells kind position r) ∨
      q.Announces kind (p.logs.get kind).size r := by
  unfold object? at hobject
  rw [h.objects_eq] at hobject
  rcases ne_or_stored_of_get?_foldl hobject with hnone | ⟨e, he, hstored, rfl⟩
  · refine .inl ⟨(get?_foldl_applyTo_of_ne hnone).symm.trans hobject, ?_⟩
    intro position ⟨i, e, hi, he, hr⟩
    by_cases hlt : i < (p.logs.get kind).size
    · exact ⟨i, e, hi, (h.getElem?_log hlt).symm.trans he, hr⟩
    · -- what is new is about other objects
      have hge : (p.logs.get kind).toList.length ≤ i := Nat.le_of_not_lt hlt
      rw [← Array.getElem?_toList, h.log_eq, List.getElem?_append_right hge] at he
      exact absurd hr (hnone e (List.mem_filter.1 (List.mem_of_getElem? he)).1)
  · right
    obtain rfl : e.object.kind = kind := Option.some.inj (e.object.kind?_ref.symm.trans hkind)
    have hmem : e ∈ events.filter (·.object.kind = e.object.kind) :=
      List.mem_filter.2 ⟨he, decide_eq_true rfl⟩
    obtain ⟨j, hj⟩ := List.mem_iff_getElem?.1 hmem
    refine ⟨(p.logs.get e.object.kind).size + j, e, Nat.le_add_right _ _, ?_, hstored, rfl⟩
    rw [← Array.getElem?_toList, h.log_eq, ← Array.length_toList,
      List.getElem?_append_right (Nat.le_add_right _ _), Nat.add_sub_cancel_left]
    exact hj

/-! ## Calming -/

/-- The objects that events are about, one for each event. -/
def refsOf (events : List Event) : List ResourceRef :=
  events.map (·.object.ref)

/-- What no event tells of is as it was. -/
theorem Written.object?_eq (h : p.Written q events) (hr : r ∉ refsOf events) :
    q.object? r = p.object? r := by
  unfold object?
  rw [h.objects_eq]
  exact get?_foldl_applyTo_of_ne fun e he href => hr (href ▸ List.mem_map_of_mem he)

/-- A platform becomes another one by settling, and these events are written about it. -/
structure Calming (p q : Platform) (events : List Event) : Prop where
  written : p.Written q events
  once : (refsOf events).Nodup
  untold : ∀ r, p.SettledAt r → r ∉ refsOf events
  settles : ∀ r ∈ refsOf events, q.SettledAt r
  keeps : ∀ r, p.SettledAt r → q.SettledAt r

theorem Calming.refl (p : Platform) : p.Calming p [] where
  written := written_nil rfl rfl rfl
  once := .nil
  untold _ _ hr := nomatch hr
  settles _ hr := nomatch hr
  keeps _ hr := hr

theorem Calming.trans (h : p.Calming q events) (h' : q.Calming s later) :
    p.Calming s (events ++ later) where
  written := h.written.trans h'.written
  once := by
    unfold refsOf
    rw [List.map_append, List.nodup_append]
    refine ⟨h.once, h'.once, ?_⟩
    -- what has been settled first is not settled again
    rintro r hr _ hr' rfl
    exact h'.untold r (h.settles r hr) hr'
  untold r hr := by
    unfold refsOf
    rw [List.map_append, List.mem_append, not_or]
    exact ⟨h.untold r hr, h'.untold r (h.keeps r hr)⟩
  settles r hr := by
    unfold refsOf at hr
    rw [List.map_append, List.mem_append] at hr
    rcases hr with hr | hr
    · exact h'.keeps r (h.settles r hr)
    · exact h'.settles r hr
  keeps r hr := h'.keeps r (h.keeps r hr)

/-- Settling writes of no more objects than there are. -/
theorem Calming.length_le (h : p.Calming q events) : events.length ≤ p.objects.size := by
  have hsubset : refsOf events ⊆ p.objects.keys := by
    intro r hr
    by_contra hnone
    have habsent : p.object? r = none := Table.get?_eq_none_iff.2 hnone
    refine h.untold r ?_ hr
    -- what is not there is settled
    intro w hw
    rw [habsent] at hw
    cases hw
  have hlength := (List.subperm_of_subset h.once hsubset).length_le
  rwa [refsOf, List.length_map, Table.keys, List.length_map] at hlength

/-! ## Settlements -/

/-- A platform becomes another one by settling, and these events are all that is written: each tells
of an object as it is now. -/
structure Settlement (p q : Platform) (events : List Event) : Prop extends p.Calming q events where
  modified : ∀ e ∈ events, e.change = .modified
  current : ∀ e ∈ events, q.object? e.object.ref = some e.object
  keys_eq : q.objects.keys = p.objects.keys
  nextVersion_eq : q.nextVersion = p.nextVersion + events.length
  failures_eq : q.failures = p.failures
  capacity_eq : q.capacity = p.capacity
  deletions_eq : q.deletions = p.deletions

theorem Settlement.refl (p : Platform) : p.Settlement p [] where
  toCalming := .refl p
  modified _ he := nomatch he
  current _ he := nomatch he
  keys_eq := rfl
  nextVersion_eq := rfl
  failures_eq := rfl
  capacity_eq := rfl
  deletions_eq := rfl

theorem Settlement.trans (h : p.Settlement q events) (h' : q.Settlement s later) :
    p.Settlement s (events ++ later) where
  toCalming := h.toCalming.trans h'.toCalming
  modified := List.forall_mem_append.2 ⟨h.modified, h'.modified⟩
  current := by
    refine List.forall_mem_append.2 ⟨fun e he => ?_, h'.current⟩
    -- what has been settled first is left alone afterwards
    have hsettled := h.settles e.object.ref (List.mem_map_of_mem he)
    rw [h'.written.object?_eq (h'.untold _ hsettled)]
    exact h.current e he
  keys_eq := h'.keys_eq.trans h.keys_eq
  nextVersion_eq := by
    rw [h'.nextVersion_eq, h.nextVersion_eq, List.length_append, Nat.add_assoc]
  failures_eq := h'.failures_eq.trans h.failures_eq
  capacity_eq := h'.capacity_eq.trans h.capacity_eq
  deletions_eq := h'.deletions_eq.trans h.deletions_eq

/-- To settle an object that is not settled is written once, as the object that is stored. -/
theorem calming_settle_of_ne (hp : p.Sound) (hw : p.object? r = some w)
    (hne : w.status ≠ w.settledStatus) :
    p.Calming (p.settle r).2 [⟨.modified,
      (w.withStatus w.settledStatus).stamped w.metadata.generation p.nextVersion⟩] := by
  obtain ⟨hsettling, hsettled⟩ := settling_settle hp r
  have href : w.ref = r := hp.ref_eq r w hw
  have heffect : Operation.effect (p.object? r) (.settle r) =
      .store .modified (w.withStatus w.settledStatus) := by
    rw [hw]
    exact if_neg hne
  have hat := (Operation.settle r).effect_at rfl (hp.ref_eq r)
  have hwritten := Effect.written (p := p) hat (hp.ref_eq r)
  have hrun : (p.settle r).2 = _ := (Operation.settle r).apply_eq_run rfl (by simp)
  rw [← hrun, heffect] at hwritten
  refine ⟨hwritten, List.pairwise_singleton _ _, ?_, ?_, fun s hs => hsettling.settledAt hs⟩
  · intro s hs hmem
    obtain rfl : s = r := (List.mem_singleton.1 hmem).trans href
    exact hne (hs w hw)
  · intro s hmem
    obtain rfl : s = r := (List.mem_singleton.1 hmem).trans href
    exact hsettled

/-- To settle one object writes one event or none, as the answer says. -/
theorem exists_settlement_settle (hp : p.Sound) (r : ResourceRef) :
    ∃ events, p.Settlement (p.settle r).2 events ∧ (p.settle r).1.toNat = events.length := by
  by_cases hr : p.SettledAt r
  · rw [settle_of_settledAt hr]
    exact ⟨[], .refl p, rfl⟩
  · obtain ⟨w, hw, hne⟩ := exists_of_not_settledAt hr
    have hcalming := calming_settle_of_ne hp hw hne
    have href : w.ref = r := hp.ref_eq r w hw
    rw [settle_of_ne hw hne] at hcalming ⊢
    exact ⟨_, {
      toCalming := hcalming
      modified := List.forall_mem_singleton.2 rfl
      current := List.forall_mem_singleton.2 ((object?_store _ _ _ _).trans (if_pos rfl))
      keys_eq := Table.keys_insert_of_get?_eq_some (href.symm ▸ hw) _
      nextVersion_eq := rfl
      failures_eq := rfl
      capacity_eq := rfl
      deletions_eq := rfl }, rfl⟩

theorem settleEach_cons (p : Platform) (r : ResourceRef) (rest : List ResourceRef) :
    p.settleEach (r :: rest) =
      (((p.settle r).2.settleEach rest).1 + (p.settle r).1.toNat,
        ((p.settle r).2.settleEach rest).2) :=
  rfl

/-- To settle some objects writes as many events as the answer says. -/
theorem exists_settlement_settleEach (hp : p.Sound) (refs : List ResourceRef) :
    ∃ events, p.Settlement (p.settleEach refs).2 events ∧
      (p.settleEach refs).1 = events.length := by
  induction refs generalizing p with
  | nil => exact ⟨[], .refl p, rfl⟩
  | cons r rest ih =>
    obtain ⟨first, hfirst, hchanged⟩ := exists_settlement_settle hp r
    obtain ⟨others, hothers, hcount⟩ := ih ((evolves_settle p r).sound hp)
    refine ⟨first ++ others, hfirst.trans hothers, ?_⟩
    rw [settleEach_cons, hcount, hchanged, List.length_append, Nat.add_comm]

end Platform

end Handover
