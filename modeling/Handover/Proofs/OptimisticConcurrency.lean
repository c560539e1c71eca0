import Handover.Proofs.Platform.Incarnation
import Handover.Proofs.Platform.News
import Handover.Proofs.Platform.Reading

/-!
# Optimistic concurrency

Every object that is stored gets a version that no object has had before (`Platform.Versioned`), so
a version names one state of one object, for all times. An update that carries the version of a read
is therefore accepted only if nothing has happened to the object since the read
(`Platform.Untouched`), and accepting it is something that happens to the object: of two updates
based on one read at most one is accepted.
-/

namespace Handover.Platform

variable {p q s : Platform} {kind : WorkloadKind} {i : Nat} {r : ResourceRef} {u v w : Workload}
  {change : Change}

/-! ## Versions that have been given out -/

/-- An event tells that an object was stored. -/
def Stored (p : Platform) (kind : WorkloadKind) (i : Nat) (w : Workload) : Prop :=
  ∃ e, (p.logs.get kind)[i]? = some e ∧ e.change ≠ .deleted ∧ e.object = w

/-- A sound platform on which no version stands for two objects, and none that was given out has
been given out twice or is still to come, whatever has become of its object. -/
structure Versioned (p : Platform) : Prop extends p.Sound where
  version_inj : ∀ r s v w, p.object? r = some v → p.object? s = some w →
    v.metadata.resourceVersion = w.metadata.resourceVersion → r = s
  stored_lt : ∀ kind i w, p.Stored kind i w → w.metadata.resourceVersion < p.nextVersion
  stored_inj : ∀ kind i v other j w, p.Stored kind i v → p.Stored other j w →
    v.metadata.resourceVersion = w.metadata.resourceVersion → kind = other ∧ i = j

theorem versioned_empty (capacity : Nat) : (empty capacity).Versioned := by
  have hstored : ∀ kind i w, ¬ (empty capacity).Stored kind i w := by
    intro kind i w ⟨e, he, _⟩
    cases kind <;> cases he
  refine ⟨sound_empty capacity, ?_, ?_, ?_⟩
  · intro r s v w hv
    cases hv
  · intro kind i w h
    exact absurd h (hstored kind i w)
  · intro kind i v other j w h
    exact absurd h (hstored kind i v)

/-- What was stored once an event is written: what had been stored before, or the object of that
event. -/
theorem Stored.of_emit (hlogs : q.logs = p.logs.emit change u) (h : q.Stored kind i w) :
    p.Stored kind i w ∨
      change ≠ .deleted ∧ w = u ∧ kind = u.kind ∧ i = (p.logs.get u.kind).size := by
  obtain ⟨e, he, hchange, rfl⟩ := h
  rw [hlogs, Logs.get_emit] at he
  split at he
  · next hkind =>
    rw [Array.getElem?_push] at he
    split at he
    · next hi =>
      cases he
      exact .inr ⟨hchange, rfl, hkind, hkind ▸ hi⟩
    · exact .inl ⟨e, he, hchange, rfl⟩
  · exact .inl ⟨e, he, hchange, rfl⟩

/-- Storing an object under the next version gives that version out. -/
theorem Versioned.store (h : p.Versioned) (change : Change)
    (hw : w.metadata.resourceVersion = p.nextVersion) : (p.store change w).Versioned := by
  have hsound : (p.store change w).Sound := (Edit.store change w hw).sound h.toSound
  have hnext : (p.store change w).nextVersion = p.nextVersion + 1 := rfl
  refine ⟨hsound, ?_, ?_, ?_⟩
  · -- the stored object is the only one of the new version
    intro r s v u hv hu hversion
    rw [object?_store] at hv hu
    split at hv
    · split at hu
      · next hr hs => exact hr.trans hs.symm
      · cases hv
        have hlt := h.version_lt s u hu
        omega
    · split at hu
      · cases hu
        have hlt := h.version_lt r v hv
        omega
      · exact h.version_inj r s v u hv hu hversion
  · intro kind i v hv
    rcases hv.of_emit rfl with hold | ⟨-, rfl, -⟩
    · have hlt := h.stored_lt kind i v hold
      omega
    · omega
  · intro kind i v other j u hv hu hversion
    rcases hv.of_emit rfl with hold | ⟨-, rfl, hkind, hi⟩
    · rcases hu.of_emit rfl with hold' | ⟨-, rfl, -⟩
      · exact h.stored_inj kind i v other j u hold hold' hversion
      · have hlt := h.stored_lt kind i v hold
        omega
    · rcases hu.of_emit rfl with hold' | ⟨-, -, hother, hj⟩
      · have hlt := h.stored_lt other j u hold'
        omega
      · exact ⟨hkind.trans hother.symm, hi.trans hj.symm⟩

theorem Edit.versioned (h : p.Edit q) (hp : p.Versioned) : q.Versioned := by
  have hsound := h.sound hp.toSound
  cases h with
  | failures fs => exact ⟨hsound, hp.version_inj, hp.stored_lt, hp.stored_inj⟩
  | store change w hw => exact hp.store change hw
  | remove r w propagation hw =>
    have hget : ∀ s v, (p.remove r w propagation).object? s = some v → p.object? s = some v := by
      intro s v hv
      rw [object?_remove] at hv
      split at hv
      · cases hv
      · exact hv
    have hstored : ∀ kind i v, (p.remove r w propagation).Stored kind i v → p.Stored kind i v := by
      intro kind i v hv
      rcases hv.of_emit rfl with hold | ⟨hdeleted, -⟩
      · exact hold
      · exact absurd rfl hdeleted
    refine ⟨hsound, ?_, ?_, ?_⟩
    · intro s t v u hv hu
      exact hp.version_inj s t v u (hget s v hv) (hget t u hu)
    · intro kind i v hv
      exact hp.stored_lt kind i v (hstored kind i v hv)
    · intro kind i v other j u hv hu
      exact hp.stored_inj kind i v other j u (hstored kind i v hv) (hstored other j u hu)

theorem Evolves.versioned (h : p.Evolves q) (hp : p.Versioned) : q.Versioned := by
  induction h with
  | refl => exact hp
  | tail _ hedit ih => exact hedit.versioned ih

/-- Operations on an empty platform lead to a versioned one. -/
theorem versioned_after (capacity : Nat) (ops : List Operation) :
    ((empty capacity).after ops).Versioned :=
  (evolves_after _ ops).versioned (versioned_empty capacity)

/-- A version that was given out never stands for anything else. -/
theorem Versioned.eq_of_version_eq {r s : ResourceRef} (hp : p.Versioned)
    (hv : p.object? r = some v) (hpq : p.Evolves q) (hw : q.object? s = some w)
    (hversion : w.metadata.resourceVersion = v.metadata.resourceVersion) : s = r ∧ w = v := by
  rcases hpq.object?_eq_or_renewed s with heq | hnew
  · rw [heq] at hw
    obtain rfl := hp.version_inj s r w v hw hv hversion
    rw [hv] at hw
    exact ⟨rfl, (Option.some.inj hw).symm⟩
  · -- what was stored since has a version that was still to come
    have hlt := hp.version_lt r v hv
    have hle := hnew.le_version w hw
    omega

/-! ## Reads and updates -/

/-- Nothing has happened to an object on the way from a platform to a later one: the object is the
same, and no event in between tells of it. -/
structure Untouched (p : Platform) (r : ResourceRef) (q : Platform) : Prop where
  object?_eq : q.object? r = p.object? r
  untold : ∀ kind, ¬ q.Tells kind (p.logs.get kind).size r

/-- An object is untouched as long as no event is written. -/
theorem untouched_of_logs_eq (hobject : q.object? r = p.object? r) (hlogs : q.logs = p.logs) :
    p.Untouched r q := by
  refine ⟨hobject, ?_⟩
  intro kind ⟨i, e, hi, he, _⟩
  rw [hlogs] at he
  have hlt := (Array.getElem?_eq_some_iff.1 he).1
  omega

/-- An event about another object does not touch an object. -/
theorem untouched_of_emit (hobject : q.object? r = p.object? r)
    (hlogs : q.logs = p.logs.emit change w) (hne : w.ref ≠ r) : p.Untouched r q := by
  refine ⟨hobject, ?_⟩
  intro kind ⟨i, e, hi, he, hr⟩
  have hold : (p.logs.get kind)[i]? = none := Array.getElem?_eq_none hi
  rw [hlogs, Logs.get_emit] at he
  split at he
  · rw [Array.getElem?_push, hold] at he
    split at he
    · -- the only event from there on is the one that was written
      cases he
      exact hne hr
    · cases he
  · rw [hold] at he
    cases he

/-- An edit leaves an object untouched or renews it. -/
theorem Edit.untouched_or_renewed (h : p.Edit q) (hp : p.Sound) (r : ResourceRef) :
    p.Untouched r q ∨ q.Renewed p.nextVersion r := by
  cases h with
  | failures fs => exact .inl (untouched_of_logs_eq rfl rfl)
  | store change w hw =>
    by_cases hr : r = w.ref
    · exact .inr (hr ▸ renewed_store change hw)
    · have hobject : (p.store change w).object? r = p.object? r := by rw [object?_store, if_neg hr]
      exact .inl (untouched_of_emit hobject rfl (Ne.symm hr))
  | remove s w propagation hw =>
    by_cases hr : r = s
    · exact .inr (hr ▸ renewed_remove r w propagation)
    · have hobject : (p.remove s w propagation).object? r = p.object? r := by
        rw [object?_remove, if_neg hr]
      have href : w.ref = s := hp.ref_eq s w hw
      exact .inl (untouched_of_emit hobject rfl (href ▸ Ne.symm hr))

theorem Untouched.trans (h : p.Untouched r q) (hedit : q.Edit s) (hstep : q.Untouched r s) :
    p.Untouched r s := by
  refine ⟨hstep.object?_eq.trans h.object?_eq, ?_⟩
  intro kind ⟨i, e, hi, he, hr⟩
  by_cases hlt : i < (q.logs.get kind).size
  · -- an event that was there before the edit
    rw [hedit.getElem?_log hlt] at he
    exact h.untold kind ⟨i, e, hi, he, hr⟩
  · exact hstep.untold kind ⟨i, e, Nat.le_of_not_lt hlt, he, hr⟩

/-- While a platform evolves, an object stays untouched or is renewed. -/
theorem Evolves.untouched_or_renewed (h : p.Evolves q) (hp : p.Sound) (r : ResourceRef) :
    p.Untouched r q ∨ q.Renewed p.nextVersion r := by
  induction h with
  | refl => exact .inl (untouched_of_logs_eq rfl rfl)
  | tail hrun hedit ih =>
    rcases ih with hstill | hnew
    · rcases hedit.untouched_or_renewed (Evolves.sound hrun hp) r with hstep | hnew
      · exact .inl (hstill.trans hedit hstep)
      · exact .inr (hnew.mono (Evolves.nextVersion_le hrun))
    · exact .inr (hedit.renewed hnew)

/-- An update that carries the version of a read is accepted only if nothing has happened to the
object since. -/
theorem Versioned.untouched_of_accepts (hp : p.Versioned) (hw : p.object? r = some w)
    (hpq : p.Evolves q) (hversion : u.metadata.resourceVersion = w.metadata.resourceVersion)
    (haccepted : q.Accepts u) : u.ref = r ∧ q.object? r = some w ∧ p.Untouched r q := by
  obtain ⟨written, hok⟩ := haccepted
  obtain ⟨current, hcurrent, hbased, -, -⟩ := of_update_eq_ok (Prod.ext hok rfl)
  obtain ⟨href, rfl⟩ := hp.eq_of_version_eq hw hpq hcurrent (hbased.trans hversion)
  rw [href] at hcurrent
  refine ⟨href, hcurrent, ?_⟩
  rcases hpq.untouched_or_renewed hp.toSound r with hstill | hnew
  · exact hstill
  · have hlt := hp.version_lt r current hw
    have hle := hnew.le_version current hcurrent
    omega

/-- An accepted update replaces the object. -/
theorem object?_ne_of_accepts (hq : q.Sound) (hw : q.object? r = some w) (hr : u.ref = r)
    (haccepted : q.Accepts u) : (q.update u).2.object? r ≠ some w := by
  obtain ⟨written, hok⟩ := haccepted
  have hupdate : q.update u = (.ok written, (q.update u).2) := Prod.ext hok rfl
  obtain ⟨current, -, -, rfl, hstore⟩ := of_update_eq_ok hupdate
  rw [hstore, object?_store]
  intro hsame
  have href : (q.revision current u).ref = r := hr
  rw [if_pos href.symm] at hsame
  -- what is stored now has the version that was still to come
  have hversion : (q.revision current u).metadata.resourceVersion = q.nextVersion := rfl
  rw [Option.some.inj hsame] at hversion
  have hlt := hq.version_lt r w hw
  omega

/-- After an accepted update, no other update based on the same read is accepted. -/
theorem Versioned.not_accepts_of_accepts (hp : p.Versioned) (hw : p.object? r = some w)
    (hpq : p.Evolves q) (hu : u.metadata.resourceVersion = w.metadata.resourceVersion)
    (haccepted : q.Accepts u) (hqs : (q.update u).2.Evolves s)
    (hv : v.metadata.resourceVersion = w.metadata.resourceVersion) : ¬ s.Accepts v := by
  intro hagain
  have hpq' := hpq.trans (evolves_update q u)
  obtain ⟨hr, hcurrent, -⟩ := hp.untouched_of_accepts hw hpq hu haccepted
  obtain ⟨-, hstill, -⟩ := hp.untouched_of_accepts hw (hpq'.trans hqs) hv hagain
  have hreplaced := object?_ne_of_accepts (hpq.sound hp.toSound) hcurrent hr haccepted
  exact version_ne_of_changed hp.toSound hw hpq' hreplaced hqs hstill rfl

/-! ## Whole runs -/

theorem after_append (p : Platform) (ops rest : List Operation) :
    p.after (ops ++ rest) = (p.after ops).after rest :=
  List.foldl_append

/-- In every run from a platform without objects, with any objects and versions that clients care to
send: the platform is versioned, and a version never stands for two objects or two states of one,
not even at different times. So an update that carries the version of a read is accepted only if the
object is, and was all the time, the one that was read, and no event tells of it; and of two updates
based on one read the later one is refused if the earlier one was accepted. As long as an object is
neither deleted nor put anew it is there, and its generation changes just by an accepted update that
changes the specification; then it becomes the next one. Unless such an update meets the last
generation in range, the generation does not shrink and belongs to one specification. -/
theorem optimistic_concurrency (capacity : Nat) (before between : List Operation) :
    let p := (empty capacity).after before
    let q := p.after between
    q.Versioned ∧
    (∀ r s v w, p.object? r = some v → q.object? s = some w →
      w.metadata.resourceVersion = v.metadata.resourceVersion → s = r ∧ w = v) ∧
    (∀ r w u, p.get r = .ok w → u.metadata.resourceVersion = w.metadata.resourceVersion →
      q.Accepts u →
        u.ref = r ∧
        (∀ ops rest, between = ops ++ rest → (p.after ops).object? r = some w) ∧
        (∀ kind, ¬ q.Tells kind (p.logs.get kind).size r) ∧
        ∀ ops v rest, between = ops ++ .update v :: rest →
          v.metadata.resourceVersion = w.metadata.resourceVersion → ¬ (p.after ops).Accepts v) ∧
    ∀ r w, p.object? r = some w → (∀ op ∈ between, ¬ op.Ends r) →
      ∃ v, q.object? r = some v ∧
        ((∀ ops op rest, between = ops ++ op :: rest → ¬ op.Overflows (p.after ops) r) →
          w.metadata.generation ≤ v.metadata.generation ∧
          (w.metadata.generation = v.metadata.generation → v.spec.agrees w.spec = true)) ∧
        ∀ op : Operation, ¬ op.Ends r → ∃ v', (op.apply q).object? r = some v' ∧
          (v'.metadata.generation ≠ v.metadata.generation ↔
            ∃ u, op.Revises q r u ∧ u.spec.agrees v.spec = false) ∧
          ∀ u, op.Revises q r u → u.spec.agrees v.spec = false →
            v'.metadata.generation = v.nextGeneration := by
  intro p q
  have hp : p.Versioned := versioned_after capacity before
  have hpq : p.Evolves q := evolves_after p between
  have hq : q.Versioned := hpq.versioned hp
  refine ⟨hq, ?_, ?_, ?_⟩
  · intro r s v w hv hw hversion
    exact hp.eq_of_version_eq hv hpq hw hversion
  · intro r w u hget hversion haccepted
    have hw := object?_of_get hget
    obtain ⟨hr, hstill, huntouched⟩ := hp.untouched_of_accepts hw hpq hversion haccepted
    refine ⟨hr, ?_, huntouched.untold, ?_⟩
    · intro ops rest hsplit
      have hfirst := evolves_after p ops
      have hrest : (p.after ops).Evolves q := by
        show (p.after ops).Evolves (p.after between)
        rw [hsplit, after_append]
        exact evolves_after _ rest
      -- had the object been something else in between, its version would not have come back
      by_contra hchanged
      exact version_ne_of_changed hp.toSound hw hfirst hchanged hrest hstill rfl
    · intro ops v rest hsplit hversion' hearlier
      have hrest : ((p.after ops).update v).2.Evolves q := by
        show ((Operation.update v).apply (p.after ops)).Evolves (p.after between)
        rw [hsplit, after_append]
        exact evolves_after _ rest
      exact hp.not_accepts_of_accepts hw (evolves_after p ops) hversion' hearlier hrest hversion
        haccepted
  · intro r w hw hops
    obtain ⟨v, hv, hcontinues⟩ := exists_after hp.toSound hw between hops
    refine ⟨v, hv, fun hfits => ?_, fun op hop => ?_⟩
    · exact ⟨(hcontinues hfits).generation_le, (hcontinues hfits).agrees_of_eq⟩
    · obtain ⟨v', hv', hleads⟩ := exists_leads hq.toSound hv hop
      exact ⟨v', hv', hleads.generation_ne_iff, fun u => hleads.generation_eq⟩

/-- A deployment is deleted and created again in the same words. An update based on the first one is
refused; of two updates based on the second one the later is refused, and the accepted one has made
the generation grow. -/
theorem optimistic_concurrency_recreated :
    let web := Workload.named .deployment "default" "web"
    let p := (empty 4).after [.create web]
    let q := p.after [.delete web.ref .orphan, .create web]
    let three := (web.stamped 1 2).withReplicas (some 3)
    let q' := q.after [.update three]
    p.get web.ref = .ok (web.stamped 1 1) ∧ ¬ q.Accepts (web.stamped 1 1) ∧
      q.get web.ref = .ok (web.stamped 1 2) ∧ q.Accepts three ∧ ¬ q'.Accepts three ∧
      ∃ v, q'.object? web.ref = some v ∧ v.metadata.generation = 2 := by
  intro web p q three q'
  have hread : p.get web.ref = .ok (web.stamped 1 1) := by rfl
  have hread' : q.get web.ref = .ok (web.stamped 1 2) := by rfl
  have hobject' : q.object? web.ref = some (web.stamped 1 2) := by rfl
  have haccepts : q.Accepts three := ⟨_, rfl⟩
  obtain ⟨-, -, hupdates, -⟩ := optimistic_concurrency 4 [.create web]
    [.delete web.ref .orphan, .create web]
  obtain ⟨-, -, hupdates', -⟩ := optimistic_concurrency 4
    [.create web, .delete web.ref .orphan, .create web] [.update three]
  obtain ⟨-, -, -, hlives⟩ := optimistic_concurrency 4
    [.create web, .delete web.ref .orphan, .create web] []
  refine ⟨hread, ?_, hread', haccepts, ?_, ?_⟩
  · intro hstale
    obtain ⟨-, hstill, -⟩ := hupdates web.ref (web.stamped 1 1) (web.stamped 1 1) hread rfl hstale
    have hdeleted := hstill [.delete web.ref .orphan] [.create web] rfl
    cases hdeleted
  · intro hagain
    obtain ⟨-, -, -, honce⟩ := hupdates' web.ref (web.stamped 1 2) three hread' rfl hagain
    exact honce [] three [] rfl rfl haccepts
  · have hnone : ∀ op ∈ ([] : List Operation), ¬ op.Ends web.ref := by simp
    obtain ⟨v, hv, -, hnext⟩ := hlives web.ref (web.stamped 1 2) hobject' hnone
    obtain rfl : v = web.stamped 1 2 := Option.some.inj (hv.symm.trans hobject')
    obtain ⟨v', hv', -, hgrows⟩ := hnext (.update three) not_false
    have hdiffers : three.spec.agrees (web.stamped 1 2).spec = false := by decide +kernel
    exact ⟨v', hv', (hgrows three ⟨rfl, rfl, haccepts⟩ hdiffers).trans rfl⟩

/-- An object is put on the platform with the last generation there is. An accepted update of its
replica count leaves it with the first one, so generations of one life do shrink. And an update that
gives a zero of the template a sign is accepted without a new generation, though the specification
that is stored is another one. -/
theorem generation_may_shrink :
    let last := (Workload.named .deployment "default" "web").stamped IntRange.signed64.high 0
    let three : Operation := .update ((last.stamped 0 1).withReplicas (some 3))
    let p := (empty 4).after [.put last]
    let zero (negative : Bool) : Workload :=
      { Workload.named .deployment "default" "web" with
        spec.template := .real ⟨negative, 0, Double.leastExponent⟩ }
    let signed : Operation := .update ((zero true).stamped 0 1)
    let q := (empty 4).after [.put (zero false)]
    (∃ w v, p.object? last.ref = some w ∧ ¬ three.Ends last.ref ∧
      (p.after [three]).object? last.ref = some v ∧
      w.metadata.generation = 9223372036854775807 ∧
      v.metadata.generation = -9223372036854775808) ∧
    ∃ w v, q.object? (zero false).ref = some w ∧ ¬ signed.Ends (zero false).ref ∧
      (q.after [signed]).object? (zero false).ref = some v ∧
      v.metadata.resourceVersion ≠ w.metadata.resourceVersion ∧ v.spec ≠ w.spec ∧
      v.metadata.generation = w.metadata.generation := by
  intro last three p zero signed q
  let first := (last.withReplicas (some 3)).stamped IntRange.signed64.low 2
  refine ⟨⟨last.stamped IntRange.signed64.high 1, first, ?_, not_false, ?_, rfl, rfl⟩,
    (zero false).stamped 1 1, (zero true).stamped 1 2, ?_, not_false, ?_, ?_, ?_, rfl⟩
  · decide +kernel
  · decide +kernel
  · decide +kernel
  · decide +kernel
  · decide
  · decide +kernel

end Handover.Platform
