import Handover.Proofs.Pass
import Mathlib.Tactic.Tauto

/-!
# Coherent registries

A registry is `Coherent` if every executing migration owns both its objects and the kinds of both
are watched. So whatever happens to an object of an executing migration, its owner can be found.
What a pass records, registration and eviction keep a registry coherent.
-/

namespace Handover

/-! ## Owners of a kind -/

section

variable {α : Type} [DecidableEq α] {a : α}

theorem mem_eraseRepsBy_loop {l acc : List α} {b : α} :
    a ∈ List.eraseRepsBy.loop (· == ·) b l acc ↔ a = b ∨ a ∈ l ∨ a ∈ acc := by
  induction l generalizing acc b with
  | nil =>
    rw [List.eraseRepsBy.loop, List.mem_reverse, List.mem_cons]
    simp
  | cons c l ih =>
    rw [List.eraseRepsBy.loop, List.mem_cons]
    split
    · next hrepeated =>
      -- one of two equal neighbours is left
      obtain rfl : b = c := by simpa using hrepeated
      rw [ih]
      tauto
    · rw [ih, List.mem_cons]
      tauto

theorem mem_eraseReps {l : List α} : a ∈ l.eraseReps ↔ a ∈ l := by
  cases l with
  | nil => exact Iff.rfl
  | cons b l =>
    refine mem_eraseRepsBy_loop.trans ?_
    rw [List.mem_cons]
    simp

end

theorem MigrationId.mem_sort {id : MigrationId} {ids : List MigrationId} :
    id ∈ MigrationId.sort ids ↔ id ∈ ids :=
  mem_eraseReps.trans List.mem_mergeSort

namespace Registry

variable {g : Registry} {id other : MigrationId} {m : Migration} {r : ResourceRef}
  {kind : WorkloadKind}

/-- The owners of a kind are those that own an object of it. -/
theorem mem_ownersOfKind_iff :
    id ∈ g.ownersOfKind kind ↔ ∃ r, g.ownerOf? r = some id ∧ r.kind? = some kind := by
  unfold ownersOfKind
  rw [MigrationId.mem_sort, List.mem_map]
  constructor
  · intro ⟨⟨r, owner⟩, hentry, howner⟩
    obtain ⟨hentry, hkind⟩ := List.mem_filter.1 hentry
    obtain rfl : owner = id := howner
    exact ⟨r, Table.get?_eq_some_iff.2 hentry, of_decide_eq_true hkind⟩
  · intro ⟨r, howner, hkind⟩
    have hentry : (r, id) ∈ g.owners.entries := Table.get?_eq_some_iff.1 howner
    exact ⟨(r, id), List.mem_filter.2 ⟨hentry, decide_eq_true hkind⟩, rfl⟩

/-! ## Coherence -/

/-- Every executing migration owns its two objects, and the kinds of both are watched. -/
structure Coherent (g : Registry) : Prop where
  owns : ∀ id m, g.get? id = some m → m.ending = none →
    ∀ side, g.ownerOf? (m.refOf side) = some id
  watches : ∀ id m, g.get? id = some m → m.ending = none →
    ∀ side, ∃ kind, (m.refOf side).kind? = some kind ∧ g.isWatched kind = true

theorem coherent_empty : empty.Coherent :=
  ⟨fun _ _ h => (nomatch h), fun _ _ h => (nomatch h)⟩

/-- A registry stays coherent if its executing migrations are as before and keep what they own. -/
theorem Coherent.of_le {f : Registry} (h : g.Coherent)
    (hget : ∀ id m, f.get? id = some m → m.ending = none →
      ∃ m', g.get? id = some m' ∧ m'.ending = none ∧ ∀ side, m'.refOf side = m.refOf side)
    (howner : ∀ id m, f.get? id = some m → m.ending = none → ∀ r, g.ownerOf? r = some id →
      f.ownerOf? r = some id)
    (hwatched : ∀ kind, g.isWatched kind = true → f.isWatched kind = true) : f.Coherent := by
  refine ⟨fun id m hm hexecuting side => ?_, fun id m hm hexecuting side => ?_⟩
  · obtain ⟨m', hm', hexecuting', href⟩ := hget id m hm hexecuting
    exact howner id m hm hexecuting _ (href side ▸ h.owns id m' hm' hexecuting' side)
  · obtain ⟨m', hm', hexecuting', href⟩ := hget id m hm hexecuting
    obtain ⟨kind, hkind, hw⟩ := h.watches id m' hm' hexecuting' side
    exact ⟨kind, href side ▸ hkind, hwatched kind hw⟩

/-! ## Passes -/

/-- A release gives up one object, if the migration owns it. -/
theorem ownerOf?_release (g : Registry) (id : MigrationId) (r s : ResourceRef) :
    (g.release id r).ownerOf? s =
      if s = r ∧ g.ownerOf? s = some id then none else g.ownerOf? s := by
  unfold release
  by_cases hs : s = r
  · subst hs
    by_cases howner : g.ownerOf? s = some id
    · rw [if_pos howner, if_pos ⟨rfl, howner⟩]
      exact (Table.get?_erase g.owners s s).trans (if_pos rfl)
    · rw [if_neg howner, if_neg fun h => howner h.2]
  · rw [if_neg fun h : s = r ∧ _ => hs h.1]
    split
    · exact (Table.get?_erase g.owners r s).trans (if_neg hs)
    · rfl

/-- A release takes nothing from other owners. -/
theorem ownerOf?_release_of_other (g : Registry) (id : MigrationId) (s r : ResourceRef)
    (h : g.ownerOf? r = some other) (hne : other ≠ id) :
    (g.release id s).ownerOf? r = some other := by
  rw [ownerOf?_release, if_neg, h]
  rintro ⟨-, hid⟩
  exact hne (Option.some.inj (h.symm.trans hid))

/-- Recording a verdict takes nothing from other owners. -/
theorem ownerOf?_record (g : Registry) (id : MigrationId) (now : Nat) (v : Verdict)
    (h : g.ownerOf? r = some other) (hne : other ≠ id) :
    (g.record id now v).ownerOf? r = some other := by
  unfold record finish
  split
  · exact h
  · dsimp only
    split
    · exact h
    · split
      · exact h
      · exact ownerOf?_release_of_other _ _ _ _ (ownerOf?_release_of_other _ _ _ _ h hne) hne

theorem watched_release (g : Registry) (id : MigrationId) (r : ResourceRef) :
    (g.release id r).watched = g.watched := by
  unfold release
  split <;> rfl

theorem watched_finish (g : Registry) (id : MigrationId) (ending : Ending) :
    (g.finish id ending).2.watched = g.watched := by
  unfold finish
  split
  · rfl
  · split
    · rfl
    · rw [watched_release, watched_release]
      rfl

theorem watched_record (g : Registry) (id : MigrationId) (now : Nat) (v : Verdict) :
    (g.record id now v).watched = g.watched := by
  unfold record
  split
  · rfl
  · rw [watched_finish]
    rfl

theorem watched_reconcile {σ : Type} (g : Registry) (client : Client σ) (limit now : Nat)
    (id : MigrationId) (s : σ) : (g.reconcile client limit now id s).2.1.watched = g.watched := by
  unfold reconcile
  cases g.get? id with
  | none => rfl
  | some m => exact g.watched_record id now _

theorem isWatched_record (g : Registry) (id : MigrationId) (now : Nat) (v : Verdict)
    (kind : WorkloadKind) : (g.record id now v).isWatched kind = g.isWatched kind := by
  unfold isWatched
  rw [watched_record]

/-- Recording a verdict keeps a registry coherent. -/
theorem Coherent.record (h : g.Coherent) (id : MigrationId) (now : Nat) (v : Verdict) :
    (g.record id now v).Coherent := by
  refine h.of_le (fun other m hm hexecuting => ?_) (fun other m hm hexecuting r howner => ?_)
    fun kind hwatched => (isWatched_record g id now v kind).trans hwatched
  · rw [get?_record] at hm
    split at hm
    · obtain ⟨m', hm', rfl⟩ := Option.map_eq_some_iff.1 hm
      rw [Migration.ending_conclude_eq_none_iff] at hexecuting
      exact ⟨m', hm', hexecuting.2, fun side => (m'.refOf_conclude now v side).symm⟩
    · exact ⟨m, hm, hexecuting, fun _ => rfl⟩
  · by_cases hother : other = id
    · -- the migration itself gives nothing up, for the verdict has not ended it
      subst hother
      rw [get?_record, if_pos rfl] at hm
      obtain ⟨m', hm', rfl⟩ := Option.map_eq_some_iff.1 hm
      rw [Migration.ending_conclude_eq_none_iff] at hexecuting
      unfold Registry.record
      rw [hexecuting.1]
      exact howner
    · exact ownerOf?_record g id now v howner hother

/-- Recording that nothing has changed changes nothing. -/
theorem record_unchanged (g : Registry) (id : MigrationId) (now : Nat) :
    g.record id now .unchanged = g := by
  have hmodify : g.migrations.modify id (fun m => m) = g.migrations := by
    unfold Table.modify Table.mapValues
    simp
  show { g with migrations := g.migrations.modify id (fun m => m) } = g
  rw [hmodify]

/-- A pass that has found nothing to do changes nothing. -/
theorem reconcile_of_pass_unchanged {σ : Type} {client : Client σ} {limit now : Nat} {s : σ}
    (hm : g.get? id = some m) (hpass : m.pass client limit now s = (.unchanged, s)) :
    g.reconcile client limit now id s = (.ok (), g, s) := by
  rw [reconcile_of_pass hm hpass, record_unchanged]
  rfl

/-! ## Registration and eviction -/

theorem get?_register (g : Registry) (m : Migration) (id : MigrationId) :
    (g.register m).get? id = if id = m.id then some m else g.get? id :=
  Table.get?_insert g.migrations m.id id m

/-- A registered executing migration owns its two objects; others keep theirs. -/
theorem ownerOf?_register (g : Registry) (hexecuting : m.ending = none) (r : ResourceRef) :
    (g.register m).ownerOf? r =
      if r = m.dst then some m.id else if r = m.src then some m.id else g.ownerOf? r := by
  have hterminal : m.isTerminal = false := by
    unfold Migration.isTerminal
    rw [hexecuting]
    rfl
  unfold ownerOf? register
  rw [hterminal]
  show ((g.owners.insert m.src m.id).insert m.dst m.id).get? r = _
  rw [Table.get?_insert, Table.get?_insert]

theorem ownerOf?_register_of_isTerminal (hterminal : m.isTerminal = true) (r : ResourceRef) :
    (g.register m).ownerOf? r = g.ownerOf? r := by
  unfold ownerOf? register
  rw [if_pos hterminal]

/-- Registering an executing migration keeps a registry coherent if its objects are free and their
kinds are watched. -/
theorem Coherent.register (h : g.Coherent) (hexecuting : m.ending = none)
    (hfree : ∀ side, g.ownerOf? (m.refOf side) = none)
    (hwatched : ∀ side, ∃ kind, (m.refOf side).kind? = some kind ∧ g.isWatched kind = true) :
    (g.register m).Coherent := by
  refine ⟨fun id m' hm' hexecuting' side => ?_, fun id m' hm' hexecuting' side => ?_⟩
  · rw [ownerOf?_register g hexecuting]
    rw [get?_register] at hm'
    split at hm'
    · next hid =>
      -- the migration that is registered is the owner of both
      cases hm'
      subst hid
      cases side with
      | src => simp [Migration.refOf, Side.pick]
      | dst => simp [Migration.refOf, Side.pick]
    · have howner := h.owns id m' hm' hexecuting' side
      -- what another one owns was not free
      have hne : ∀ other, m'.refOf side ≠ m.refOf other := fun other heq => by
        rw [heq, hfree other] at howner
        cases howner
      have hdst : m'.refOf side ≠ m.dst := hne .dst
      have hsrc : m'.refOf side ≠ m.src := hne .src
      rw [if_neg hdst, if_neg hsrc, howner]
  · rw [get?_register] at hm'
    split at hm'
    · cases hm'
      exact hwatched side
    · exact h.watches id m' hm' hexecuting' side

/-- Registering a migration that has ended keeps a registry coherent. -/
theorem Coherent.register_of_isTerminal (h : g.Coherent) (hterminal : m.isTerminal = true) :
    (g.register m).Coherent := by
  have howners : (g.register m).owners = g.owners := by
    unfold Registry.register
    rw [if_pos hterminal]
  refine h.of_le (fun id m' hm' hexecuting => ?_) (fun id m' hm' hexecuting r howner => ?_)
    fun kind hwatched => hwatched
  · rw [get?_register] at hm'
    split at hm'
    · cases hm'
      unfold Migration.isTerminal at hterminal
      rw [hexecuting] at hterminal
      cases hterminal
    · exact ⟨m', hm', hexecuting, fun _ => rfl⟩
  · unfold ownerOf? at howner ⊢
    rw [howners, howner]

/-- After eviction all migrations but the evicted ones are known. -/
theorem get?_prune (g : Registry) (policy : Retention) (now : Nat) (id : MigrationId) :
    (g.prune policy now).2.get? id =
      if id ∈ g.evicted policy now then none else g.get? id := by
  refine (Table.get?_keep g.migrations (fun id _ => id ∉ g.evicted policy now) id).trans ?_
  unfold get?
  by_cases hevicted : id ∈ g.evicted policy now
  · simp [hevicted]
  · cases g.migrations.get? id <;> simp [hevicted]

theorem get?_of_get?_prune {policy : Retention} {now : Nat}
    (h : (g.prune policy now).2.get? id = some m) : g.get? id = some m := by
  rw [get?_prune] at h
  split at h
  · cases h
  · exact h

/-- Eviction keeps a registry coherent. -/
theorem Coherent.prune (h : g.Coherent) (policy : Retention) (now : Nat) :
    (g.prune policy now).2.Coherent :=
  h.of_le (fun _ m hm hexecuting => ⟨m, get?_of_get?_prune hm, hexecuting, fun _ => rfl⟩)
    (fun _ _ _ _ _ howner => howner) fun _ hwatched => hwatched

/-! ## Watched kinds -/

theorem isWatched_markWatched_iff (g : Registry) (kind other : WorkloadKind) :
    (g.markWatched kind).isWatched other = true ↔ other = kind ∨ g.isWatched other = true := by
  unfold isWatched markWatched
  simp only [decide_eq_true_eq]
  split
  · next hkind =>
    constructor
    · exact .inr
    · rintro (rfl | h)
      · exact hkind
      · exact h
  · rw [List.mem_append, List.mem_singleton, or_comm]

theorem Coherent.markWatched (h : g.Coherent) (kind : WorkloadKind) :
    (g.markWatched kind).Coherent :=
  h.of_le (fun _ m hm hexecuting => ⟨m, hm, hexecuting, fun _ => rfl⟩)
    (fun _ _ _ _ _ howner => howner)
    fun other hwatched => (isWatched_markWatched_iff g kind other).2 (.inr hwatched)

end Registry

end Handover
