import Handover.Proofs.Registry
import Mathlib.Data.List.Nodup

/-!
# Exclusive registries

A registry is `Exclusive` if the owners of objects are exactly the executing migrations it knows
that have them as their source or destination. Since an object has at most one owner, no two
executing migrations share an object, and the index of owners has two entries for each of them.
There are six things that can happen to a registry (`Registry.Change`), and each of them keeps it
exclusive.
-/

namespace Handover

namespace Migration

variable {m : Migration}

theorem names_iff {r : ResourceRef} : m.names r = true ↔ m.src = r ∨ m.dst = r :=
  decide_eq_true_iff

end Migration

/-- A verdict, its ending apart, changes neither the identity of a migration nor its objects. -/
theorem Verdict.applyTo_eq (v : Verdict) (m : Migration) :
    ((v.applyTo m).id, (v.applyTo m).src, (v.applyTo m).dst, (v.applyTo m).ending) =
      (m.id, m.src, m.dst, m.ending) := by
  cases v with
  | landed side n generation => cases side <;> rfl
  | failed cause => cases cause <;> rfl
  | unchanged => rfl
  | succeeded => rfl
  | refused e => rfl

namespace Registry

variable {g f : Registry} {id other : MigrationId} {m : Migration} {r : ResourceRef}
  {ending : Ending}

/-- A migration is known, executing, and has an object as its source or its destination. -/
def Occupies (g : Registry) (id : MigrationId) (r : ResourceRef) : Prop :=
  ∃ m, g.get? id = some m ∧ m.isTerminal = false ∧ m.names r = true

/-- Every migration is known by its own identifier. -/
def Identified (g : Registry) : Prop :=
  ∀ id m, g.get? id = some m → m.id = id

theorem identified_empty : empty.Identified :=
  fun _ _ h => nomatch h

/-- Migrations are known by their identifiers, the objects of executing ones differ, and objects are
owned by the executing migrations that have them. -/
structure Exclusive (g : Registry) : Prop where
  identified : g.Identified
  src_ne_dst : ∀ id m, g.get? id = some m → m.isTerminal = false → m.src ≠ m.dst
  owner_iff : ∀ r id, g.ownerOf? r = some id ↔ g.Occupies id r

theorem exclusive_empty : empty.Exclusive where
  identified := identified_empty
  src_ne_dst := fun _ _ h => nomatch h
  owner_iff := fun _ _ => ⟨fun h => (nomatch h), fun ⟨_, h, _⟩ => (nomatch h)⟩

/-- An object that is free is occupied by nobody. -/
theorem Exclusive.ownerOf?_eq_none_iff (h : g.Exclusive) (r : ResourceRef) :
    g.ownerOf? r = none ↔ ∀ id, ¬ g.Occupies id r := by
  rw [Option.eq_none_iff_forall_ne_some]
  exact forall_congr' fun id => not_congr (h.owner_iff r id)

/-! ## Consequences -/

/-- No two executing migrations share an object. -/
theorem Exclusive.eq_of_occupies (h : g.Exclusive) (hid : g.Occupies id r)
    (hother : g.Occupies other r) : id = other := by
  have howner := (h.owner_iff r id).2 hid
  have howner' := (h.owner_iff r other).2 hother
  exact Option.some.inj (howner.symm.trans howner')

/-- The entries of the index that an executing migration stands for. -/
def entriesOf (m : Migration) : List (ResourceRef × MigrationId) :=
  [(m.src, m.id), (m.dst, m.id)]

/-- The executing migrations that are known. -/
def executing (g : Registry) : List Migration :=
  g.migrations.values.filter fun m => !m.isTerminal

theorem Identified.mem_values_iff (h : g.Identified) :
    m ∈ g.migrations.values ↔ g.get? m.id = some m := by
  constructor
  · intro hm
    obtain ⟨⟨id, m'⟩, hentry, rfl⟩ := List.mem_map.1 hm
    have hget : g.get? id = some m' := Table.get?_eq_some_iff.2 hentry
    rw [h id m' hget]
    exact hget
  · intro hget
    exact List.mem_map.2 ⟨_, Table.get?_eq_some_iff.1 hget, rfl⟩

theorem mem_executing_iff (h : g.Exclusive) :
    m ∈ g.executing ↔ g.get? m.id = some m ∧ m.isTerminal = false := by
  unfold executing
  rw [List.mem_filter, h.identified.mem_values_iff, Bool.not_eq_true']

theorem mem_entriesOf_iff {entry : ResourceRef × MigrationId} :
    entry ∈ entriesOf m ↔ entry.2 = m.id ∧ m.names entry.1 = true := by
  obtain ⟨r, id⟩ := entry
  rw [Migration.names_iff]
  unfold entriesOf
  simp only [List.mem_cons, List.not_mem_nil, or_false, Prod.mk.injEq]
  constructor
  · rintro (⟨rfl, rfl⟩ | ⟨rfl, rfl⟩)
    · exact ⟨rfl, .inl rfl⟩
    · exact ⟨rfl, .inr rfl⟩
  · rintro ⟨rfl, rfl | rfl⟩
    · exact .inl ⟨rfl, rfl⟩
    · exact .inr ⟨rfl, rfl⟩

theorem nodup_entries {κ ν : Type} (t : Table κ ν) : t.entries.Nodup :=
  List.Nodup.of_map Prod.fst t.keys_nodup

/-- No migration is known twice. -/
theorem Identified.nodup_values (h : g.Identified) : g.migrations.values.Nodup := by
  refine (List.nodup_map_iff_inj_on (nodup_entries g.migrations)).2 ?_
  rintro ⟨id, m⟩ hm ⟨other, m'⟩ hm' rfl
  have hid := h id _ (Table.get?_eq_some_iff.2 hm)
  have hother := h other _ (Table.get?_eq_some_iff.2 hm')
  rw [← hid, ← hother]

/-- The two entries of an executing migration are different ones. -/
theorem Exclusive.nodup_entriesOf (h : g.Exclusive) (hm : g.get? id = some m)
    (hexecuting : m.isTerminal = false) : (entriesOf m).Nodup := by
  have hne := h.src_ne_dst id m hm hexecuting
  simp [entriesOf, hne]

/-- The index has the two entries of an executing migration and no others that name it. -/
theorem Exclusive.entries_perm (h : g.Exclusive) (hm : g.get? id = some m)
    (hexecuting : m.isTerminal = false) :
    (g.owners.entries.filter (·.2 = id)).Perm [(m.src, id), (m.dst, id)] := by
  obtain rfl := h.identified id m hm
  refine (List.perm_ext_iff_of_nodup ((nodup_entries g.owners).filter _)
    (h.nodup_entriesOf hm hexecuting)).2 fun entry => ?_
  obtain ⟨r, owner⟩ := entry
  rw [List.mem_filter, mem_entriesOf_iff, decide_eq_true_iff, ← Table.get?_eq_some_iff]
  constructor
  · rintro ⟨howner, rfl⟩
    obtain ⟨m', hm', -, hnames⟩ := (h.owner_iff r _).1 howner
    obtain rfl : m = m' := Option.some.inj (hm.symm.trans hm')
    exact ⟨rfl, hnames⟩
  · rintro ⟨rfl, hnames⟩
    exact ⟨(h.owner_iff r _).2 ⟨m, hm, hexecuting, hnames⟩, rfl⟩

/-- The index consists of the entries of the executing migrations. -/
theorem Exclusive.entries_perm_flatMap (h : g.Exclusive) :
    g.owners.entries.Perm (g.executing.flatMap entriesOf) := by
  have hnodup : (g.executing.flatMap entriesOf).Nodup := by
    rw [List.nodup_flatMap]
    constructor
    · intro m hm
      obtain ⟨hget, hexecuting⟩ := (mem_executing_iff h).1 hm
      exact h.nodup_entriesOf hget hexecuting
    · -- entries of different migrations differ in the identifier
      refine (h.identified.nodup_values.filter _).imp_of_mem
        fun {m m'} hm hm' hne entry hentry hentry' => hne ?_
      obtain ⟨hget, -⟩ := (mem_executing_iff h).1 hm
      obtain ⟨hget', -⟩ := (mem_executing_iff h).1 hm'
      have hid : m.id = m'.id :=
        (mem_entriesOf_iff.1 hentry).1.symm.trans (mem_entriesOf_iff.1 hentry').1
      rw [hid] at hget
      exact Option.some.inj (hget.symm.trans hget')
  refine (List.perm_ext_iff_of_nodup (nodup_entries g.owners) hnodup).2 fun entry => ?_
  obtain ⟨r, id⟩ := entry
  rw [← Table.get?_eq_some_iff, List.mem_flatMap]
  constructor
  · intro howner
    obtain ⟨m, hm, hexecuting, hnames⟩ := (h.owner_iff r id).1 howner
    obtain rfl := h.identified id m hm
    exact ⟨m, (mem_executing_iff h).2 ⟨hm, hexecuting⟩, mem_entriesOf_iff.2 ⟨rfl, hnames⟩⟩
  · rintro ⟨m, hm, hentry⟩
    obtain ⟨hget, hexecuting⟩ := (mem_executing_iff h).1 hm
    obtain ⟨hid, hnames⟩ := mem_entriesOf_iff.1 hentry
    dsimp only at hid hnames
    rw [hid]
    exact (h.owner_iff r m.id).2 ⟨m, hget, hexecuting, hnames⟩

/-- The index has two entries for each executing migration. -/
theorem Exclusive.size_owners (h : g.Exclusive) : g.owners.size = 2 * g.executing.length := by
  have hlength := h.entries_perm_flatMap.length_eq
  rw [List.length_flatMap] at hlength
  unfold Table.size
  rw [hlength]
  simp [entriesOf, List.map_const', Nat.mul_comm]

/-! ## Identifiers -/

theorem Identified.register (h : g.Identified) (m : Migration) : (g.register m).Identified := by
  intro other t ht
  rw [get?_register] at ht
  split at ht
  · next hother =>
    cases ht
    exact hother.symm
  · exact h other t ht

/-- A change that keeps the identifiers of migrations keeps them known by these. -/
theorem Identified.modify (h : g.Identified) (id : MigrationId) {change : Migration → Migration}
    (hchange : ∀ m, (change m).id = m.id) : (g.modify id change).Identified := by
  intro other t ht
  rw [get?_modify] at ht
  split at ht
  · obtain ⟨m, hm, rfl⟩ := Option.map_eq_some_iff.1 ht
    rw [hchange]
    exact h other m hm
  · exact h other t ht

theorem Identified.finish (h : g.Identified) (id : MigrationId) (ending : Ending) :
    (g.finish id ending).2.Identified := by
  intro other t ht
  rw [get?_finish] at ht
  split at ht
  · obtain ⟨m, hm, rfl⟩ := Option.map_eq_some_iff.1 ht
    exact h other m hm
  · exact h other t ht

theorem Identified.record (h : g.Identified) (id : MigrationId) (now : Nat) (v : Verdict) :
    (g.record id now v).Identified := by
  have hmodify : (g.modify id v.applyTo).Identified :=
    h.modify id fun m => congrArg (·.1) (v.applyTo_eq m)
  unfold Registry.record
  dsimp only
  split
  · exact hmodify
  · exact hmodify.finish id _

theorem Identified.prune (h : g.Identified) (policy : Retention) (now : Nat) :
    (g.prune policy now).2.Identified :=
  fun other m hm => h other m (get?_of_get?_prune hm)

/-! ## Changes -/

/-- A registry stays exclusive if its index and what its executing migrations name stay. -/
theorem Exclusive.of_owners_eq (h : g.Exclusive) (howners : f.owners = g.owners)
    (hid : f.Identified)
    (hforth : ∀ id m, g.get? id = some m → m.isTerminal = false →
      ∃ m', f.get? id = some m' ∧ m'.isTerminal = false ∧ m'.src = m.src ∧ m'.dst = m.dst)
    (hback : ∀ id m, f.get? id = some m → m.isTerminal = false →
      ∃ m', g.get? id = some m' ∧ m'.isTerminal = false ∧ m'.src = m.src ∧ m'.dst = m.dst) :
    f.Exclusive := by
  refine ⟨hid, fun id m hm hexecuting => ?_, fun r id => ?_⟩
  · obtain ⟨m', hm', hexecuting', hsrc, hdst⟩ := hback id m hm hexecuting
    rw [← hsrc, ← hdst]
    exact h.src_ne_dst id m' hm' hexecuting'
  · have hindex : f.ownerOf? r = g.ownerOf? r := congrArg (·.get? r) howners
    rw [hindex, h.owner_iff]
    constructor
    · rintro ⟨m, hm, hexecuting, hnames⟩
      obtain ⟨m', hm', hexecuting', hsrc, hdst⟩ := hforth id m hm hexecuting
      refine ⟨m', hm', hexecuting', ?_⟩
      rwa [Migration.names_iff, hsrc, hdst, ← Migration.names_iff]
    · rintro ⟨m, hm, hexecuting, hnames⟩
      obtain ⟨m', hm', hexecuting', hsrc, hdst⟩ := hback id m hm hexecuting
      refine ⟨m', hm', hexecuting', ?_⟩
      rwa [Migration.names_iff, hsrc, hdst, ← Migration.names_iff]

/-- Counting and noting down keep a registry exclusive. -/
theorem Exclusive.modify_applyTo (h : g.Exclusive) (id : MigrationId) (v : Verdict) :
    (g.modify id v.applyTo).Exclusive := by
  have happly (m : Migration) := v.applyTo_eq m
  simp only [Prod.mk.injEq] at happly
  refine h.of_owners_eq rfl (h.identified.modify id fun m => (happly m).1)
    (fun other m hm hexecuting => ?_) fun other m hm hexecuting => ?_
  · rw [get?_modify, hm]
    split
    · obtain ⟨-, hsrc, hdst, hending⟩ := happly m
      refine ⟨_, rfl, ?_, hsrc, hdst⟩
      rw [Migration.isTerminal_eq_false_iff] at hexecuting ⊢
      rw [hending, hexecuting]
    · exact ⟨m, rfl, hexecuting, rfl, rfl⟩
  · rw [get?_modify] at hm
    split at hm
    · obtain ⟨m', hm', rfl⟩ := Option.map_eq_some_iff.1 hm
      obtain ⟨-, hsrc, hdst, hending⟩ := happly m'
      refine ⟨m', hm', ?_, hsrc.symm, hdst.symm⟩
      rw [Migration.isTerminal_eq_false_iff] at hexecuting ⊢
      rw [← hending, hexecuting]
    · exact ⟨m, hm, hexecuting, rfl, rfl⟩

/-- What is recorded of a verdict on a migration, given what the migration was. -/
def recording (id : MigrationId) (now : Nat) (v : Verdict) (m : Migration) : Registry → Registry :=
  match v.ending? now with
  | none => (·.modify id v.applyTo)
  | some ending =>
    if m.isTerminal then (·.modify id v.applyTo)
    else (·.release id m.dst) ∘ (·.release id m.src) ∘ (·.modify id (·.finish ending)) ∘
      (·.modify id v.applyTo)

theorem record_eq_recording (h : g.get? id = some m) (now : Nat) (v : Verdict) :
    g.record id now v = recording id now v m g := by
  have hget : (g.modify id v.applyTo).get? id = some (v.applyTo m) := by
    rw [get?_modify, if_pos rfl, h]
    rfl
  obtain ⟨-, hsrc, hdst, hending⟩ : _ ∧ _ ∧ _ ∧ _ := by
    simpa only [Prod.mk.injEq] using v.applyTo_eq m
  have hterminal : (v.applyTo m).isTerminal = m.isTerminal := congrArg Option.isSome hending
  unfold record recording
  cases v.ending? now with
  | none => rfl
  | some ending =>
    simp only [finish, hget, hterminal, hsrc, hdst]
    by_cases hm : m.isTerminal
    · rw [if_pos hm, if_pos hm]
    · rw [if_neg hm, if_neg hm]
      rfl

/-- To release both objects of a migration gives up what it names, as far as it owns that. -/
theorem ownerOf?_release_release (g : Registry) (id : MigrationId) (m : Migration)
    (r : ResourceRef) :
    ((g.release id m.src).release id m.dst).ownerOf? r =
      if m.names r = true ∧ g.ownerOf? r = some id then none else g.ownerOf? r := by
  rw [ownerOf?_release, ownerOf?_release]
  by_cases hid : g.ownerOf? r = some id
  · by_cases hsrc : r = m.src
    · simp [hsrc, Migration.names]
    · simp [hid, hsrc, Ne.symm hsrc, Migration.names, eq_comm (a := r)]
  · simp [hid]

/-- A migration that ends gives up what it names, as far as it owns that. -/
theorem ownerOf?_finish (hm : g.get? id = some m) (hexecuting : m.isTerminal = false)
    (ending : Ending) (r : ResourceRef) :
    (g.finish id ending).2.ownerOf? r =
      if m.names r = true ∧ g.ownerOf? r = some id then none else g.ownerOf? r := by
  have hfinish : (g.finish id ending).2 =
      ((g.modify id (·.finish ending)).release id m.src).release id m.dst := by
    unfold finish
    rw [hm]
    simp [hexecuting]
  rw [hfinish, ownerOf?_release_release]
  rfl

/-- A migration that ends gives up its two objects, and others keep theirs. -/
theorem Exclusive.ownerOf?_finish (h : g.Exclusive) (hm : g.get? id = some m)
    (hexecuting : m.isTerminal = false) (ending : Ending) (r : ResourceRef) :
    (g.finish id ending).2.ownerOf? r = if m.names r then none else g.ownerOf? r := by
  rw [Registry.ownerOf?_finish hm hexecuting]
  by_cases hnames : m.names r = true
  · have howner := (h.owner_iff r id).2 ⟨m, hm, hexecuting, hnames⟩
    rw [if_pos ⟨hnames, howner⟩, if_pos hnames]
  · rw [if_neg fun h => hnames h.1, if_neg hnames]

/-- What is executing after an end was so before, and is not what has ended. -/
theorem of_get?_finish (hm : (g.finish id ending).2.get? other = some m)
    (hexecuting : m.isTerminal = false) : other ≠ id ∧ g.get? other = some m := by
  rw [get?_finish] at hm
  split at hm
  · obtain ⟨t, -, rfl⟩ := Option.map_eq_some_iff.1 hm
    cases hexecuting
  · next hother => exact ⟨hother, hm⟩

/-- To end what is not executing does nothing. -/
theorem finish_of_not_executing (h : ¬ ∃ m, g.get? id = some m ∧ m.isTerminal = false)
    (ending : Ending) : g.finish id ending = (false, g) := by
  unfold finish
  cases hm : g.get? id with
  | none => rfl
  | some m =>
    have hterminal : m.isTerminal = true := by
      by_contra hne
      exact h ⟨m, hm, Bool.eq_false_iff.2 hne⟩
    dsimp only
    rw [if_pos hterminal]

/-- Ending a migration keeps a registry exclusive. -/
theorem Exclusive.finish (h : g.Exclusive) (id : MigrationId) (ending : Ending) :
    (g.finish id ending).2.Exclusive := by
  by_cases hknown : ∃ m, g.get? id = some m ∧ m.isTerminal = false
  · obtain ⟨m, hm, hexecuting⟩ := hknown
    refine ⟨h.identified.finish id ending, fun other t ht hexecuting' => ?_, fun r other => ?_⟩
    · obtain ⟨-, hget⟩ := of_get?_finish ht hexecuting'
      exact h.src_ne_dst other t hget hexecuting'
    · rw [h.ownerOf?_finish hm hexecuting ending]
      constructor
      · intro hr
        split at hr
        · cases hr
        · next hnames =>
          obtain ⟨t, ht, hexecuting', hnames'⟩ := (h.owner_iff r other).1 hr
          have hother : other ≠ id := by
            rintro rfl
            obtain rfl : m = t := Option.some.inj (hm.symm.trans ht)
            exact hnames hnames'
          refine ⟨t, ?_, hexecuting', hnames'⟩
          rw [get?_finish, if_neg hother, ht]
      · rintro ⟨t, ht, hexecuting', hnames'⟩
        obtain ⟨hother, hget⟩ := of_get?_finish ht hexecuting'
        have hoccupies : g.Occupies other r := ⟨t, hget, hexecuting', hnames'⟩
        rw [if_neg, (h.owner_iff r other).2 hoccupies]
        -- an object that both of them name is occupied by one
        intro hnames
        exact hother (h.eq_of_occupies hoccupies ⟨m, hm, hexecuting, hnames⟩)
  · rwa [finish_of_not_executing hknown]

/-- Recording a verdict keeps a registry exclusive. -/
theorem Exclusive.record (h : g.Exclusive) (id : MigrationId) (now : Nat) (v : Verdict) :
    (g.record id now v).Exclusive := by
  have hmodify := h.modify_applyTo id v
  unfold Registry.record
  dsimp only
  split
  · exact hmodify
  · exact hmodify.finish id _

/-- Registering an executing migration keeps a registry exclusive if it is new and its objects are
free. -/
theorem Exclusive.register (h : g.Exclusive) (hexecuting : m.isTerminal = false)
    (hnew : g.get? m.id = none) (hne : m.src ≠ m.dst) (hsrc : g.ownerOf? m.src = none)
    (hdst : g.ownerOf? m.dst = none) : (g.register m).Exclusive := by
  refine ⟨h.identified.register m, fun id m' hm' hexecuting' => ?_, fun r id => ?_⟩
  · rw [get?_register] at hm'
    split at hm'
    · cases hm'
      exact hne
    · exact h.src_ne_dst id m' hm' hexecuting'
  · have howner := ownerOf?_register g (Migration.isTerminal_eq_false_iff.1 hexecuting) r
    -- what the migration names was free, and what others name was not
    have hfree : m.names r = true → ∀ id, ¬ g.Occupies id r := by
      intro hnames
      rw [← h.ownerOf?_eq_none_iff]
      rcases Migration.names_iff.1 hnames with rfl | rfl
      · exact hsrc
      · exact hdst
    by_cases hnames : m.names r = true
    · have hself : (g.register m).ownerOf? r = some m.id := by
        rw [howner]
        rcases Migration.names_iff.1 hnames with rfl | rfl
        · simp
        · simp
      rw [hself]
      constructor
      · rintro ⟨rfl⟩
        refine ⟨m, ?_, hexecuting, hnames⟩
        rw [get?_register, if_pos rfl]
      · rintro ⟨m', hm', hexecuting', hnames'⟩
        rw [get?_register] at hm'
        split at hm'
        · next hid => rw [hid]
        · exact absurd ⟨m', hm', hexecuting', hnames'⟩ (hfree hnames id)
    · obtain ⟨hsrc', hdst'⟩ := not_or.1 (mt Migration.names_iff.2 hnames)
      rw [howner, if_neg (Ne.symm hdst'), if_neg (Ne.symm hsrc'), h.owner_iff]
      constructor
      · rintro ⟨m', hm', hexecuting', hnames'⟩
        have hid : id ≠ m.id := by
          rintro rfl
          rw [hnew] at hm'
          cases hm'
        refine ⟨m', ?_, hexecuting', hnames'⟩
        rw [get?_register, if_neg hid, hm']
      · rintro ⟨m', hm', hexecuting', hnames'⟩
        rw [get?_register] at hm'
        split at hm'
        · cases hm'
          exact absurd hnames' hnames
        · exact ⟨m', hm', hexecuting', hnames'⟩

/-- Registering a migration that has ended keeps a registry exclusive if it is new. -/
theorem Exclusive.register_of_isTerminal (h : g.Exclusive) (hterminal : m.isTerminal = true)
    (hnew : g.get? m.id = none) : (g.register m).Exclusive := by
  have howners : (g.register m).owners = g.owners := if_pos hterminal
  refine h.of_owners_eq howners (h.identified.register m) (fun id m' hm' hexecuting' => ?_)
    fun id m' hm' hexecuting' => ?_
  · have hid : id ≠ m.id := by
      rintro rfl
      rw [hnew] at hm'
      cases hm'
    rw [get?_register, if_neg hid]
    exact ⟨m', hm', hexecuting', rfl, rfl⟩
  · rw [get?_register] at hm'
    split at hm'
    · cases hm'
      rw [hterminal] at hexecuting'
      cases hexecuting'
    · exact ⟨m', hm', hexecuting', rfl, rfl⟩

/-- Migrations that are evicted have ended. -/
theorem Identified.isTerminal_of_mem_evicted (h : g.Identified) {policy : Retention} {now : Nat}
    (hid : id ∈ g.evicted policy now) : ∃ m, g.get? id = some m ∧ m.isTerminal = true := by
  unfold evicted at hid
  obtain ⟨f, hf, rfl⟩ := List.mem_map.1 hid
  have hfinished : f ∈ g.finished := List.mem_of_mem_take hf
  unfold finished at hfinished
  rw [List.mem_mergeSort, List.mem_filterMap] at hfinished
  obtain ⟨m, hm, hending⟩ := hfinished
  obtain ⟨e, he, rfl⟩ := Option.map_eq_some_iff.1 hending
  obtain ⟨⟨id, m'⟩, hentry, rfl⟩ := List.mem_map.1 hm
  have hget : g.get? id = some m' := Table.get?_eq_some_iff.2 hentry
  refine ⟨m', ?_, Option.isSome_iff_exists.2 ⟨e, he⟩⟩
  show g.get? m'.id = some m'
  rw [h id m' hget]
  exact hget

/-- Eviction leaves executing migrations. -/
theorem Identified.get?_prune (h : g.Identified) (hm : g.get? id = some m)
    (hexecuting : m.isTerminal = false) (policy : Retention) (now : Nat) :
    (g.prune policy now).2.get? id = some m := by
  have hkept : id ∉ g.evicted policy now := by
    intro hid
    obtain ⟨m', hm', hterminal⟩ := h.isTerminal_of_mem_evicted hid
    obtain rfl : m = m' := Option.some.inj (hm.symm.trans hm')
    rw [hterminal] at hexecuting
    cases hexecuting
  rw [Registry.get?_prune, if_neg hkept, hm]

/-- Eviction keeps a registry exclusive. -/
theorem Exclusive.prune (h : g.Exclusive) (policy : Retention) (now : Nat) :
    (g.prune policy now).2.Exclusive :=
  h.of_owners_eq rfl (h.identified.prune policy now)
    (fun _ m hm hexecuting => ⟨m, h.identified.get?_prune hm hexecuting policy now, hexecuting,
      rfl, rfl⟩)
    fun _ m hm hexecuting => ⟨m, get?_of_get?_prune hm, hexecuting, rfl, rfl⟩

/-- What can happen to a registry. -/
inductive Change (g : Registry) : Registry → Prop
  | claim (m : Migration) (hexecuting : m.isTerminal = false) (hnew : g.get? m.id = none)
      (hne : m.src ≠ m.dst) (hsrc : g.ownerOf? m.src = none) (hdst : g.ownerOf? m.dst = none) :
      Change g (g.register m)
  | enter (m : Migration) (hterminal : m.isTerminal = true) (hnew : g.get? m.id = none) :
      Change g (g.register m)
  | record (id : MigrationId) (now : Nat) (v : Verdict) : Change g (g.record id now v)
  | finish (id : MigrationId) (ending : Ending) : Change g (g.finish id ending).2
  | prune (policy : Retention) (now : Nat) : Change g (g.prune policy now).2
  | markWatched (kind : WorkloadKind) : Change g (g.markWatched kind)

/-- Whatever happens to a registry keeps it exclusive. -/
theorem Exclusive.after_change (h : g.Exclusive) (hchange : g.Change f) : f.Exclusive := by
  cases hchange with
  | claim m hexecuting hnew hne hsrc hdst => exact h.register hexecuting hnew hne hsrc hdst
  | enter m hterminal hnew => exact h.register_of_isTerminal hterminal hnew
  | record id now v => exact h.record id now v
  | finish id ending => exact h.finish id ending
  | prune policy now => exact h.prune policy now
  | markWatched kind => exact ⟨h.identified, h.src_ne_dst, h.owner_iff⟩

end Registry

end Handover
