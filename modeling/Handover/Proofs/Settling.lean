import Handover.Proofs.Controller
import Handover.Proofs.Platform.Confined
import Mathlib.Data.List.Nodup

/-!
# Settling everything

Whichever objects are settled, and in whatever order, there is one event of each object whose status
has changed (`Settlement.refsOf_perm`). To settle everything is to visit every object once, in some
order (`exists_settleAll_eq_settleEach`). After such a visit it is known of each object what has
become of it, so the order makes no difference but for versions (`settles_in_any_order`).
-/

namespace Handover

/-- What is declared and the generation do not depend on what is reported. -/
theorem Workload.settledStatus_congr {v w : Workload} (h : v.unreported = w.unreported) :
    v.settledStatus = w.settledStatus := by
  have hblind (u : Workload) : u.unreported.settledStatus = u.settledStatus := rfl
  rw [← hblind v, h, hblind]

/-- A settled object is known from all but its status. -/
theorem Workload.unversioned_eq_of_settled {v w : Workload} (hv : v.status = v.settledStatus)
    (hw : w.status = w.settledStatus) (h : v.unreported = w.unreported) :
    v.unversioned = w.unversioned := by
  have hrestored (u : Workload) : u.unreported.withStatus u.status = u.unversioned := rfl
  rw [← hrestored v, ← hrestored w, hv, hw, settledStatus_congr h, h]

namespace Platform

variable {p q : Platform} {events : List Event} {r : ResourceRef}

theorem mem_keys_iff : r ∈ p.objects.keys ↔ ∃ w, p.object? r = some w := by
  rw [← Option.ne_none_iff_exists', ne_eq, object?, Table.get?_eq_none_iff, Decidable.not_not]

/-! ## What has changed -/

/-- The objects whose status another platform has differently. -/
def changedIn (p q : Platform) : List ResourceRef :=
  p.objects.keys.filter fun r =>
    (q.object? r).map Workload.status ≠ (p.object? r).map Workload.status

theorem mem_changedIn_iff :
    r ∈ p.changedIn q ↔ r ∈ p.objects.keys ∧
      (q.object? r).map Workload.status ≠ (p.object? r).map Workload.status := by
  rw [changedIn, List.mem_filter, decide_eq_true_iff]

/-- The events of a settlement tell of the objects whose status has changed. -/
theorem Settlement.mem_refsOf_iff (h : p.Settlement q events)
    (hsame : (q.object? r).map Workload.unreported = (p.object? r).map Workload.unreported) :
    r ∈ refsOf events ↔ r ∈ p.changedIn q := by
  rw [mem_changedIn_iff]
  constructor
  · intro hr
    obtain ⟨e, he, rfl⟩ := List.mem_map.1 hr
    have hnow := h.current e he
    rw [hnow] at hsame
    obtain ⟨v, hv, hunreported⟩ := Option.map_eq_some_iff.1 hsame.symm
    refine ⟨mem_keys_iff.2 ⟨v, hv⟩, fun hstatus => h.untold _ ?_ hr⟩
    -- with the status that it has now, the object would have been settled before
    rw [hnow, hv, Option.map_some, Option.map_some, Option.some.injEq] at hstatus
    intro u hu
    obtain rfl : v = u := Option.some.inj (hv.symm.trans hu)
    rw [← hstatus, h.settles _ hr _ hnow, Workload.settledStatus_congr hunreported]
  · rintro ⟨-, hne⟩
    by_contra hr
    exact hne (by rw [h.written.object?_eq hr])

/-- There is one event of each object whose status has changed. -/
theorem Settlement.refsOf_perm (h : p.Settlement q events)
    (hsame : ∀ r, (q.object? r).map Workload.unreported = (p.object? r).map Workload.unreported) :
    (refsOf events).Perm (p.changedIn q) :=
  (List.perm_ext_iff_of_nodup h.once (p.objects.keys_nodup.filter _)).2 fun r =>
    h.mem_refsOf_iff (hsame r)

/-! ## Visiting every object -/

theorem settleEach_append (p : Platform) (refs others : List ResourceRef) :
    p.settleEach (refs ++ others) =
      ((p.settleEach refs).1 + ((p.settleEach refs).2.settleEach others).1,
        ((p.settleEach refs).2.settleEach others).2) := by
  induction refs generalizing p with
  | nil => exact congrArg (·, _) (Nat.zero_add _).symm
  | cons r rest ih =>
    rw [List.cons_append, settleEach_cons, ih, settleEach_cons, Nat.add_right_comm]

theorem keys_settleEach (hp : p.Sound) (refs : List ResourceRef) :
    (p.settleEach refs).2.objects.keys = p.objects.keys := by
  obtain ⟨_, hsettlement, -⟩ := exists_settlement_settleEach hp refs
  exact hsettlement.keys_eq

/-- The references of a kind are those of all objects that are of this kind. -/
theorem refsOfKind_eq (hp : p.Sound) (kind : WorkloadKind) :
    p.refsOfKind kind = p.objects.keys.filter fun r => r.kind? = some kind := by
  unfold refsOfKind Table.keys
  rw [List.filter_map]
  refine congrArg (List.map Prod.fst) (List.filter_congr fun e he => ?_)
  have href : e.2.ref = e.1 := hp.ref_eq e.1 e.2 (Table.get?_eq_some_iff.2 he)
  have hkind : e.1.kind? = some e.2.kind := href ▸ e.2.kind?_ref
  simp only [Function.comp_apply, hkind, Option.some.injEq]

/-- To settle objects one kind after the other is to settle them one after the other. -/
theorem settleKinds_eq_settleEach (hp : p.Sound) (kinds : List WorkloadKind) :
    p.settleKinds kinds = p.settleEach (kinds.flatMap p.refsOfKind) := by
  induction kinds generalizing p with
  | nil => rfl
  | cons kind rest ih =>
    have hsound := (evolves_settleKind p kind).sound hp
    -- the kinds that are left have the objects that they had
    have hrefs : (p.settleKind kind).2.refsOfKind = p.refsOfKind := by
      funext other
      rw [refsOfKind_eq hsound, refsOfKind_eq hp, settleKind, keys_settleEach hp]
    unfold settleKinds
    dsimp only
    rw [ih hsound, hrefs, List.flatMap_cons, settleEach_append]
    rfl

/-- Every object is of one kind. -/
theorem flatMap_refsOfKind_perm (hp : p.Sound) :
    (WorkloadKind.all.flatMap p.refsOfKind).Perm p.objects.keys := by
  have hnodup : p.objects.keys.Nodup := p.objects.keys_nodup
  have hmem (r : ResourceRef) (kind : WorkloadKind) :
      r ∈ p.refsOfKind kind ↔ r ∈ p.objects.keys ∧ r.kind? = some kind := by
    rw [refsOfKind_eq hp, List.mem_filter, decide_eq_true_iff]
  refine (List.perm_ext_iff_of_nodup ?_ hnodup).2 fun r => ?_
  · rw [List.nodup_flatMap]
    refine ⟨fun kind _ => refsOfKind_eq hp kind ▸ hnodup.filter _, ?_⟩
    refine List.Pairwise.imp (fun {kind other} hne r hr hr' => hne ?_)
      (by decide : WorkloadKind.all.Nodup)
    exact Option.some.inj (((hmem r kind).1 hr).2.symm.trans ((hmem r other).1 hr').2)
  · rw [List.mem_flatMap]
    constructor
    · rintro ⟨kind, -, hr⟩
      exact ((hmem r kind).1 hr).1
    · intro hr
      obtain ⟨w, hw⟩ := mem_keys_iff.1 hr
      have hkind : r.kind? = some w.kind := hp.ref_eq r w hw ▸ w.kind?_ref
      exact ⟨w.kind, WorkloadKind.mem_all w.kind, (hmem r w.kind).2 ⟨hr, hkind⟩⟩

/-- To settle everything is to visit every object once, in some order. -/
theorem exists_settleAll_eq_settleEach (hp : p.Sound) :
    ∃ order : List ResourceRef, order.Perm p.objects.keys ∧ p.settleAll = p.settleEach order :=
  ⟨_, flatMap_refsOfKind_perm hp, settleKinds_eq_settleEach hp WorkloadKind.all⟩

/-- What comes of settling everything, with the answer: every object is done, and nothing but
statuses has changed, and the versions of the objects whose status has. The answer is the number of
these objects; each has taken a version and has been written of once. -/
structure SettlesAll (p : Platform) (result : Nat × Platform) : Prop where
  done : ∀ r w, result.2.object? r = some w → w.Done
  keys_eq : result.2.objects.keys = p.objects.keys
  unreported_eq : ∀ r,
    (result.2.object? r).map Workload.unreported = (p.object? r).map Workload.unreported
  unchanged : ∀ r, r ∉ p.changedIn result.2 → result.2.object? r = p.object? r
  failures_eq : result.2.failures = p.failures
  capacity_eq : result.2.capacity = p.capacity
  deletions_eq : result.2.deletions = p.deletions
  count_eq : result.1 = (p.changedIn result.2).length
  nextVersion_eq : result.2.nextVersion = p.nextVersion + result.1
  events : ∃ events : List Event,
    (∀ kind, (result.2.logs.get kind).toList =
      (p.logs.get kind).toList ++ events.filter (·.object.kind = kind)) ∧
    (∀ e ∈ events, e.change = .modified ∧ result.2.object? e.object.ref = some e.object) ∧
    (events.map (·.object.ref)).Perm (p.changedIn result.2)

/-- After every object has been visited, all are settled. -/
theorem settled_settleEach (hp : p.Sound) {order : List ResourceRef}
    (h : order.Perm p.objects.keys) : (p.settleEach order).2.Settled := by
  obtain ⟨hsettling, hsettled⟩ := settling_settleEach hp order
  intro r w hw
  obtain ⟨v, hv, -, -⟩ := hsettling.origin r w hw
  exact hsettled r (h.mem_iff.2 (mem_keys_iff.2 ⟨v, hv⟩)) w hw

theorem settlesAll_settleEach (hp : p.Sound) {order : List ResourceRef}
    (h : order.Perm p.objects.keys) : p.SettlesAll (p.settleEach order) := by
  obtain ⟨events, hsettlement, hcount⟩ := exists_settlement_settleEach hp order
  have hunreported := map_object?_settleEach Workload.lasting_unreported hp order
  have hperm := hsettlement.refsOf_perm hunreported
  have hlength : events.length = (p.changedIn (p.settleEach order).2).length := by
    rw [← hperm.length_eq, refsOf, List.length_map]
  exact {
    done := fun r w hw => Workload.done_of_settled (settled_settleEach hp h r w hw)
    keys_eq := hsettlement.keys_eq
    unreported_eq := hunreported
    unchanged := fun r hr => hsettlement.written.object?_eq fun hmem => hr (hperm.mem_iff.1 hmem)
    failures_eq := hsettlement.failures_eq
    capacity_eq := hsettlement.capacity_eq
    deletions_eq := hsettlement.deletions_eq
    count_eq := hcount.trans hlength
    nextVersion_eq := hcount ▸ hsettlement.nextVersion_eq
    events := ⟨events, hsettlement.written.log_eq,
      fun e he => ⟨hsettlement.modified e he, hsettlement.current e he⟩, hperm⟩ }

/-- Two settled platforms whose objects are the same without what is reported have the same objects
up to versions. -/
theorem alike_of_settled (hp : p.Settled) (hq : q.Settled)
    (h : ∀ r, (p.object? r).map Workload.unreported = (q.object? r).map Workload.unreported) :
    p.Alike q := by
  intro r
  have hr := h r
  cases hv : p.object? r with
  | none =>
    rw [hv] at hr
    rw [Option.map_eq_none_iff.1 hr.symm]
  | some v =>
    rw [hv] at hr
    obtain ⟨w, hw, hsame⟩ := Option.map_eq_some_iff.1 hr.symm
    rw [hw]
    exact congrArg some (Workload.unversioned_eq_of_settled (hp r v hv) (hq r w hw) hsame.symm)

/-- On every platform that operations lead to (`sound_after`), whatever the statuses are: settling
everything leaves every object observed and fully available, and changes, counts and tells exactly
what had to change; doing so again changes nothing. It visits every object once in an order of its
own, and all of this holds in every other order, with the same objects in the end, up to
versions. -/
theorem settles_in_any_order (hp : p.Sound) :
    p.SettlesAll p.settleAll ∧ p.settleAll.2.settleAll = (0, p.settleAll.2) ∧
      (∃ order : List ResourceRef, order.Perm p.objects.keys ∧ p.settleAll = p.settleEach order) ∧
      ∀ order : List ResourceRef, order.Perm p.objects.keys →
        p.SettlesAll (p.settleEach order) ∧
          (∀ again, (p.settleEach order).2.settleEach again = (0, (p.settleEach order).2)) ∧
          (p.settleEach order).2.Alike p.settleAll.2 := by
  obtain ⟨own, hown, hall⟩ := exists_settleAll_eq_settleEach hp
  have hsettled := settled_settleAll hp
  refine ⟨hall ▸ settlesAll_settleEach hp hown, settleKinds_of_settled hsettled _,
    ⟨own, hown, hall⟩, fun order horder => ?_⟩
  have hsettled' := settled_settleEach hp horder
  refine ⟨settlesAll_settleEach hp horder, settleEach_of_settled hsettled', ?_⟩
  -- neither order has touched anything but statuses and versions
  refine alike_of_settled hsettled' hsettled fun r => ?_
  rw [hall, map_object?_settleEach Workload.lasting_unreported hp,
    map_object?_settleEach Workload.lasting_unreported hp]

/-- A shop with three workloads, one of them settled, is settled in the order of their kinds and in
the opposite one: the other two change places in the versions and nowhere else. -/
theorem settles_in_any_order_shop :
    let web :=
      ((Workload.named .deployment "shop" "web").withReplicas (some 3)).withStatus ⟨9, -1, 5⟩
    let cart := (Workload.named .cloneSet "shop" "cart").withStatus ⟨1, 0, 0⟩
    let agent := (Workload.named .daemonSet "ops" "agent").withReplicas (some 2)
    let p := (Platform.empty 4).after [.put cart, .put web, .put agent]
    let order := [agent.ref, cart.ref, web.ref]
    p.Sound ∧ order.Perm p.objects.keys ∧
      p.settleAll.1 = 2 ∧ p.changedIn p.settleAll.2 = [web.ref, agent.ref] ∧
      p.settleAll.2.settleAll = (0, p.settleAll.2) ∧
      (p.settleAll.2.object? web.ref).map (·.metadata.resourceVersion) = some 4 ∧
      ((p.settleEach order).2.object? web.ref).map (·.metadata.resourceVersion) = some 5 ∧
      (p.settleEach order).2.Alike p.settleAll.2 := by
  intro web cart agent p order
  have hp : p.Sound := sound_after 4 _
  have horder : order.Perm p.objects.keys := by decide +kernel
  obtain ⟨hsettles, hagain, -, hany⟩ := settles_in_any_order hp
  have hchanged : p.changedIn p.settleAll.2 = [web.ref, agent.ref] := by decide +kernel
  have hcount : p.settleAll.1 = 2 := by rw [hsettles.count_eq, hchanged]; rfl
  exact ⟨hp, horder, hcount, hchanged, hagain, by decide +kernel, by decide +kernel,
    (hany order horder).2.2⟩

end Platform

end Handover
