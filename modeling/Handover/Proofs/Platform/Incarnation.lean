import Handover.Proofs.Platform.Reports

/-!
# The life of an object

An object lives from its creation until it is deleted or another one is put in its place
(`Operation.Ends`). While it lives, its generation and its specification change by accepted updates
alone (`Operation.Revises`), and the generation becomes the next one just if the specification
changes (`exists_leads`). Unless there is no next one in range (`Operation.Overflows`), generations
never shrink, and two states of one life that have the same generation ask for the same
(`exists_after`).
-/

namespace Handover

namespace Spec

variable {s t u : Spec}

theorem agrees_iff : s.agrees t = true ↔ s.plainZeros = t.plainZeros :=
  decide_eq_true_iff

theorem agrees_refl (s : Spec) : s.agrees s = true :=
  agrees_iff.2 rfl

theorem agrees_trans (h : s.agrees t = true) (h' : t.agrees u = true) : s.agrees u = true :=
  agrees_iff.2 ((agrees_iff.1 h).trans (agrees_iff.1 h'))

end Spec

namespace Workload

/-- A later state of an object in the same life: its generation has not shrunk, and if it has not
grown the specification agrees with the earlier one. -/
structure Continues (w v : Workload) : Prop where
  generation_le : w.metadata.generation ≤ v.metadata.generation
  agrees_of_eq : w.metadata.generation = v.metadata.generation → v.spec.agrees w.spec = true

/-- The generation that follows one is another one, in range or not. -/
theorem nextGeneration_ne (w : Workload) : w.nextGeneration ≠ w.metadata.generation := by
  have hsize : IntRange.signed64.high - IntRange.signed64.low + 1 = 18446744073709551616 := rfl
  unfold nextGeneration IntRange.wrap
  rw [hsize]
  unfold IntRange.signed64
  dsimp only
  omega

theorem nextGeneration_of_inRange {w : Workload}
    (h : IntRange.signed64.contains (w.metadata.generation + 1) = true) :
    w.nextGeneration = w.metadata.generation + 1 :=
  IntRange.wrap_of_contains h

theorem Continues.refl (w : Workload) : w.Continues w :=
  ⟨Int.le_refl _, fun _ => w.spec.agrees_refl⟩

theorem Continues.trans {u v w : Workload} (h : u.Continues v) (h' : v.Continues w) :
    u.Continues w := by
  have hle := h.generation_le
  have hle' := h'.generation_le
  refine ⟨by omega, ?_⟩
  -- a generation that has not grown over both parts has not grown over either
  intro heq
  have hfirst := h.agrees_of_eq (by omega)
  have hsecond := h'.agrees_of_eq (by omega)
  exact Spec.agrees_trans hsecond hfirst

end Workload

namespace Platform

variable {p : Platform} {r : ResourceRef} {v w : Workload} {op : Operation}

/-- An update is accepted. -/
def Accepts (p : Platform) (u : Workload) : Prop :=
  ∃ written, (p.update u).1 = .ok written

namespace Operation

/-- An operation deletes an object or puts another one in its place. -/
def Ends (r : ResourceRef) : Operation → Prop
  | put w => w.ref = r
  | delete s _ => s = r
  | setStatus .. | settle _ | settleKind _ | settleAll | failNextUpdates .. | create _ | update _ =>
    False

/-- An operation is an update of an object, and it is accepted. -/
def Revises (op : Operation) (p : Platform) (r : ResourceRef) (u : Workload) : Prop :=
  op = .update u ∧ u.ref = r ∧ p.Accepts u

/-- An operation changes the specification of an object whose generation is the last one in
range. -/
def Overflows (op : Operation) (p : Platform) (r : ResourceRef) : Prop :=
  ∃ u w, op.Revises p r u ∧ p.object? r = some w ∧ u.spec.agrees w.spec = false ∧
    IntRange.signed64.contains (w.metadata.generation + 1) = false

end Operation

/-! ## One operation -/

/-- Creating an object leaves those that are there. -/
theorem object?_create (hw : p.object? r = some w) (u : Workload) :
    (p.create u).2.object? r = some w := by
  unfold create
  split
  · exact hw
  split
  · exact hw
  · next hfree =>
    rw [object?_store, if_neg, hw]
    -- the object that is created was not there
    intro hr
    rw [Workload.ref_stamped, Workload.ref_withStatus] at hr
    exact hfree (Table.contains_of_get?_eq_some (hr ▸ hw))

/-- Deleting an object leaves the others. -/
theorem object?_delete_of_ne {s : ResourceRef} (h : s ≠ r) (propagation : Propagation) :
    (p.delete s propagation).2.object? r = p.object? r := by
  unfold delete
  cases p.object? s with
  | none => rfl
  | some w =>
    show (p.remove s w propagation).object? r = _
    rw [object?_remove, if_neg h.symm]

/-- Putting an object leaves the others. -/
theorem object?_put_of_ne {u : Workload} (h : u.ref ≠ r) : (p.put u).2.object? r = p.object? r := by
  unfold put
  dsimp only
  rw [object?_store, Workload.ref_stamped, if_neg h.symm]

/-! ## What operations make of an object -/

/-- What an operation makes of an object that goes on to live: the specification is that of an
accepted update, and the generation is the next one if it is another one; without such an update
both stay. -/
inductive Operation.Leads (op : Operation) (p : Platform) (r : ResourceRef) (w v : Workload) : Prop
  | revised (u : Workload) (h : op.Revises p r u) (spec : v.spec = u.spec)
      (generation : v.metadata.generation =
        if u.spec.agrees w.spec then w.metadata.generation else w.nextGeneration)
  | kept (h : ∀ u, ¬ op.Revises p r u) (spec : v.spec = w.spec)
      (generation : v.metadata.generation = w.metadata.generation)

namespace Operation

theorem Leads.continues (h : op.Leads p r w v) (hw : p.object? r = some w)
    (hfits : ¬ op.Overflows p r) : w.Continues v := by
  cases h with
  | revised u hrevises hspec hgeneration =>
    by_cases hagrees : u.spec.agrees w.spec
    · rw [if_pos hagrees] at hgeneration
      exact ⟨Int.le_of_eq hgeneration.symm, fun _ => hspec ▸ hagrees⟩
    · have hinRange : IntRange.signed64.contains (w.metadata.generation + 1) = true := by
        refine Bool.of_not_eq_false fun hnot => ?_
        exact hfits ⟨u, w, hrevises, hw, Bool.eq_false_iff.2 hagrees, hnot⟩
      rw [if_neg hagrees, w.nextGeneration_of_inRange hinRange] at hgeneration
      exact ⟨by omega, fun heq => absurd heq (by omega)⟩
  | kept _ hspec hgeneration =>
    exact ⟨Int.le_of_eq hgeneration.symm, fun _ => hspec ▸ Spec.agrees_refl _⟩

/-- An operation is an update with one object only. -/
theorem Revises.unique {u u' : Workload} (h : op.Revises p r u) (h' : op.Revises p r u') :
    u' = u :=
  Operation.update.inj (h'.1.symm.trans h.1)

/-- An accepted update that changes the specification makes the generation the next one. -/
theorem Leads.generation_eq (h : op.Leads p r w v) {u : Workload} (hrevises : op.Revises p r u)
    (hdiffers : u.spec.agrees w.spec = false) : v.metadata.generation = w.nextGeneration := by
  cases h with
  | revised u' hrevises' _ hgeneration =>
    rw [hgeneration, hrevises.unique hrevises', hdiffers]
    rfl
  | kept hnone _ _ => exact absurd hrevises (hnone u)

/-- The generation changes just by an accepted update that changes the specification. -/
theorem Leads.generation_ne_iff (h : op.Leads p r w v) :
    v.metadata.generation ≠ w.metadata.generation ↔
      ∃ u, op.Revises p r u ∧ u.spec.agrees w.spec = false := by
  constructor
  · intro hne
    cases h with
    | revised u hrevises _ hgeneration =>
      refine ⟨u, hrevises, Bool.eq_false_iff.2 fun hagrees => ?_⟩
      rw [if_pos hagrees] at hgeneration
      exact hne hgeneration
    | kept _ _ hgeneration => exact absurd hgeneration hne
  · intro ⟨u, hrevises, hdiffers⟩
    rw [h.generation_eq hrevises hdiffers]
    exact w.nextGeneration_ne

end Operation

theorem exists_leads_of_reports (hp : p.Sound) (hw : p.object? r = some w) (hop : op.Reports) :
    ∃ v, (op.apply p).object? r = some v ∧ op.Leads p r w v := by
  have hmap := map_object?_of_reports
    (f := fun w => (w.spec, w.metadata.generation)) (fun _ _ _ => rfl) hp op hop r
  rw [hw] at hmap
  obtain ⟨v, hv, hfields⟩ := Option.map_eq_some_iff.1 hmap
  obtain ⟨hspec, hgeneration⟩ := Prod.mk.inj hfields
  refine ⟨v, hv, .kept ?_ hspec hgeneration⟩
  -- an update is no report
  intro u hrevises
  rw [hrevises.1] at hop
  exact hop

theorem exists_leads_of_update (hw : p.object? r = some w) (u : Workload) :
    ∃ v, (p.update u).2.object? r = some v ∧ (Operation.update u).Leads p r w v := by
  rcases hupdate : p.update u with ⟨e | written, p'⟩
  · -- a refused update changes no object
    refine ⟨w, ?_, .kept ?_ rfl rfl⟩
    · unfold object?
      rw [objects_of_update_eq_error hupdate]
      exact hw
    · intro u' ⟨hu, _, written, haccepted⟩
      rw [← Operation.update.inj hu, hupdate] at haccepted
      cases haccepted
  · obtain ⟨current, hcurrent, _, hwritten, hstore⟩ := of_update_eq_ok hupdate
    have href : written.ref = u.ref := by
      rw [hwritten]
      rfl
    by_cases hr : r = u.ref
    · obtain rfl : current = w := Option.some.inj (hcurrent.symm.trans (hr ▸ hw))
      refine ⟨written, ?_, .revised u ⟨rfl, hr.symm, written, congrArg Prod.fst hupdate⟩ ?_ ?_⟩
      · rw [hstore, object?_store, if_pos (hr.trans href.symm)]
      · rw [hwritten]
        rfl
      · rw [hwritten]
        rfl
    · -- the update is of another object
      refine ⟨w, ?_, .kept ?_ rfl rfl⟩
      · rw [hstore, object?_store, href, if_neg hr]
        exact hw
      · intro u' ⟨hu, hu', _⟩
        rw [← Operation.update.inj hu] at hu'
        exact hr hu'.symm

/-- An operation that does not end the life of an object leaves it or makes the next state of it. -/
theorem exists_leads (hp : p.Sound) (hw : p.object? r = some w) (hop : ¬ op.Ends r) :
    ∃ v, (op.apply p).object? r = some v ∧ op.Leads p r w v := by
  have hkept (hother : ∀ u, op ≠ .update u) : op.Leads p r w w :=
    .kept (fun u hrevises => hother u hrevises.1) rfl rfl
  cases op with
  | put u => exact ⟨w, (object?_put_of_ne hop).trans hw, hkept (by simp)⟩
  | create u => exact ⟨w, object?_create hw u, hkept (by simp)⟩
  | delete s propagation =>
    exact ⟨w, (object?_delete_of_ne hop propagation).trans hw, hkept (by simp)⟩
  | update u => exact exists_leads_of_update hw u
  | setStatus s status => exact exists_leads_of_reports hp hw trivial
  | settle s => exact exists_leads_of_reports hp hw trivial
  | settleKind kind => exact exists_leads_of_reports hp hw trivial
  | settleAll => exact exists_leads_of_reports hp hw trivial
  | failNextUpdates e count => exact exists_leads_of_reports hp hw trivial

/-- While nothing ends its life, an object is there; unless its generation overflows, it continues
what it was. -/
theorem exists_after (hp : p.Sound) (hw : p.object? r = some w) (ops : List Operation)
    (hops : ∀ op ∈ ops, ¬ op.Ends r) :
    ∃ v, (p.after ops).object? r = some v ∧
      ((∀ before op rest, ops = before ++ op :: rest → ¬ op.Overflows (p.after before) r) →
        w.Continues v) := by
  induction ops generalizing p w with
  | nil => exact ⟨w, hw, fun _ => .refl w⟩
  | cons op rest ih =>
    obtain ⟨u, hu, hleads⟩ := exists_leads hp hw (hops op List.mem_cons_self)
    have hsound := (op.evolves p).sound hp
    have hrest : ∀ op' ∈ rest, ¬ op'.Ends r := fun op' hmem =>
      hops op' (List.mem_cons_of_mem op hmem)
    obtain ⟨v, hv, hcontinues⟩ := ih hsound hu hrest
    refine ⟨v, hv, fun hfits => ?_⟩
    have hfirst := hleads.continues hw (hfits [] op rest rfl)
    refine hfirst.trans (hcontinues fun before op' rest' hsplit => ?_)
    exact hfits (op :: before) op' rest' (congrArg (op :: ·) hsplit)

end Platform

end Handover
