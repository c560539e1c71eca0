import Handover.Proofs.Platform.Evolution

/-!
# Settled platforms

An object is settled if its status says that its latest specification is observed and that all it
declares is available. Settling changes nothing but the statuses and the versions of objects that
are not settled (`Platform.Settling`). After everything has been settled every object is
(`settled_settleAll`), and to settle everything again does nothing (`settleAll_of_settled`).
-/

namespace Handover.Platform

/-- The object under a reference, if there is one, is settled. -/
def SettledAt (p : Platform) (r : ResourceRef) : Prop :=
  ∀ w, p.object? r = some w → w.status = w.settledStatus

/-- Every object is settled. -/
def Settled (p : Platform) : Prop :=
  ∀ r, p.SettledAt r

/-- A platform becomes another one by settling objects: each object has kept its generation, and it
is as it was or is settled. -/
structure Settling (p q : Platform) : Prop where
  failures_eq : q.failures = p.failures
  origin : ∀ r w, q.object? r = some w → ∃ v, p.object? r = some v ∧
    w.metadata.generation = v.metadata.generation ∧ (w = v ∨ w.status = w.settledStatus)

variable {p q s : Platform} {r : ResourceRef} {kind : WorkloadKind}

theorem Settling.refl (p : Platform) : p.Settling p :=
  ⟨rfl, fun _ w hw => ⟨w, hw, rfl, .inl rfl⟩⟩

theorem Settling.trans (h : p.Settling q) (h' : q.Settling s) : p.Settling s := by
  refine ⟨h'.failures_eq.trans h.failures_eq, fun r w hw => ?_⟩
  obtain ⟨v, hv, hgeneration, hsame⟩ := h'.origin r w hw
  obtain ⟨u, hu, hgeneration', hsame'⟩ := h.origin r v hv
  refine ⟨u, hu, hgeneration.trans hgeneration', ?_⟩
  rcases hsame with rfl | hsettled
  · exact hsame'
  · exact .inr hsettled

/-- What is settled stays so. -/
theorem Settling.settledAt (h : p.Settling q) (hr : p.SettledAt r) : q.SettledAt r := by
  intro w hw
  obtain ⟨v, hv, -, rfl | hsettled⟩ := h.origin r w hw
  · exact hr w hv
  · exact hsettled

/-! ## Settling one object -/

/-- To settle an object that is settled does nothing. -/
theorem settle_of_settledAt (h : p.SettledAt r) : p.settle r = (false, p) := by
  unfold settle
  cases hw : p.object? r with
  | none => rfl
  | some w => exact if_pos (h w hw)

/-- An object that is not settled is there. -/
theorem exists_of_not_settledAt (h : ¬ p.SettledAt r) :
    ∃ w, p.object? r = some w ∧ w.status ≠ w.settledStatus := by
  obtain ⟨w, hw⟩ := Classical.not_forall.1 h
  exact ⟨w, Classical.not_imp.1 hw⟩

/-- To settle an object that is not settled stores it with another status. -/
theorem settle_of_ne {w : Workload} (hw : p.object? r = some w) (hne : w.status ≠ w.settledStatus) :
    p.settle r = (true, p.store .modified
      ((w.withStatus w.settledStatus).stamped w.metadata.generation p.nextVersion)) := by
  unfold settle
  rw [hw]
  dsimp only
  rw [if_neg hne, setStatus_eq, hw]

theorem settling_settle (hp : p.Sound) (r : ResourceRef) :
    p.Settling (p.settle r).2 ∧ (p.settle r).2.SettledAt r := by
  by_cases h : p.SettledAt r
  · rw [settle_of_settledAt h]
    exact ⟨.refl p, h⟩
  · obtain ⟨w, hw, hne⟩ := exists_of_not_settledAt h
    rw [settle_of_ne hw hne]
    have href : ((w.withStatus w.settledStatus).stamped w.metadata.generation p.nextVersion).ref =
        r := hp.ref_eq r w hw
    have hget (t : ResourceRef) := object?_store p .modified
      ((w.withStatus w.settledStatus).stamped w.metadata.generation p.nextVersion) t
    rw [href] at hget
    refine ⟨⟨rfl, fun t v hv => ?_⟩, fun v hv => ?_⟩
    · rw [hget] at hv
      split at hv
      · next ht =>
        cases hv
        exact ⟨w, ht ▸ hw, rfl, .inr rfl⟩
      · exact ⟨v, hv, rfl, .inl rfl⟩
    · rw [hget, if_pos rfl] at hv
      cases hv
      rfl

/-! ## Settling many objects -/

theorem settling_settleEach (hp : p.Sound) (refs : List ResourceRef) :
    p.Settling (p.settleEach refs).2 ∧ ∀ r ∈ refs, (p.settleEach refs).2.SettledAt r := by
  induction refs generalizing p with
  | nil => exact ⟨.refl p, fun r hr => nomatch hr⟩
  | cons first rest ih =>
    obtain ⟨hfirst, hfirst_settled⟩ := settling_settle hp first
    obtain ⟨hrest, hrest_settled⟩ := ih ((evolves_settle p first).sound hp)
    refine ⟨hfirst.trans hrest, fun r hr => ?_⟩
    rcases List.mem_cons.1 hr with rfl | hr
    · exact hrest.settledAt hfirst_settled
    · exact hrest_settled r hr

/-- The object under a reference of a kind is among those of that kind. -/
theorem mem_refsOfKind (hp : p.Sound) {w : Workload} (hw : p.object? r = some w)
    (hkind : r.kind? = some kind) : r ∈ p.refsOfKind kind := by
  unfold refsOfKind
  rw [List.mem_map]
  refine ⟨(r, w), List.mem_filter.2 ⟨Table.get?_eq_some_iff.1 hw, ?_⟩, rfl⟩
  have hw_kind := w.kind?_ref
  rw [hp.ref_eq r w hw, hkind] at hw_kind
  simpa using (Option.some.inj hw_kind).symm

theorem settling_settleKind (hp : p.Sound) (kind : WorkloadKind) :
    p.Settling (p.settleKind kind).2 ∧
      ∀ r, r.kind? = some kind → (p.settleKind kind).2.SettledAt r := by
  obtain ⟨hsettling, hsettled⟩ := settling_settleEach hp (p.refsOfKind kind)
  refine ⟨hsettling, fun r hkind w hw => ?_⟩
  obtain ⟨v, hv, -, -⟩ := hsettling.origin r w hw
  exact hsettled r (mem_refsOfKind hp hv hkind) w hw

theorem settling_settleKinds (hp : p.Sound) (kinds : List WorkloadKind) :
    p.Settling (p.settleKinds kinds).2 ∧
      ∀ kind ∈ kinds, ∀ r, r.kind? = some kind → (p.settleKinds kinds).2.SettledAt r := by
  induction kinds generalizing p with
  | nil => exact ⟨.refl p, fun kind hkind => nomatch hkind⟩
  | cons first rest ih =>
    obtain ⟨hfirst, hfirst_settled⟩ := settling_settleKind hp first
    obtain ⟨hrest, hrest_settled⟩ := ih ((evolves_settleKind p first).sound hp)
    refine ⟨hfirst.trans hrest, fun kind hkind r hr => ?_⟩
    rcases List.mem_cons.1 hkind with rfl | hkind
    · exact hrest.settledAt (hfirst_settled r hr)
    · exact hrest_settled kind hkind r hr

theorem settling_settleAll (hp : p.Sound) : p.Settling p.settleAll.2 :=
  (settling_settleKinds hp WorkloadKind.all).1

/-- After everything has been settled every object is settled. -/
theorem settled_settleAll (hp : p.Sound) : p.settleAll.2.Settled := by
  intro r w hw
  have hsound : p.settleAll.2.Sound := (evolves_settleKinds p _).sound hp
  have hkind : r.kind? = some w.kind := hsound.ref_eq r w hw ▸ w.kind?_ref
  exact (settling_settleKinds hp WorkloadKind.all).2 w.kind (WorkloadKind.mem_all w.kind) r hkind w
    hw

/-- To settle objects of a settled platform does nothing, whichever they are. -/
theorem settleEach_of_settled (h : p.Settled) (refs : List ResourceRef) :
    p.settleEach refs = (0, p) := by
  induction refs with
  | nil => rfl
  | cons first rest ih =>
    unfold settleEach
    rw [settle_of_settledAt (h first)]
    dsimp only
    rw [ih]
    rfl

theorem settleKinds_of_settled (h : p.Settled) (kinds : List WorkloadKind) :
    p.settleKinds kinds = (0, p) := by
  induction kinds with
  | nil => rfl
  | cons first rest ih =>
    have hfirst : p.settleKind first = (0, p) := settleEach_of_settled h _
    unfold settleKinds
    rw [hfirst]
    dsimp only
    rw [ih, Nat.zero_add]

/-- To settle everything again does nothing. -/
theorem settleAll_of_settled (h : p.Settled) : p.settleAll.2 = p :=
  congrArg Prod.snd (settleKinds_of_settled h WorkloadKind.all)

end Handover.Platform
