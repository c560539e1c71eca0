import Handover.Proofs.Finality

/-!
# Claims that nobody checks

A registry does not ask whether the objects of a migration are free when that is registered: it
gives them to the newcomer. So over any sequence of registrations, ends and evictions
(`Registry.Operation`) claims may be displaced, given up and taken again in any order. An object is
owned by the last executing migration that was registered for it, and by nobody once that has ended
(`Registry.last_claim_owns`); one that was displaced does not get the object back.
-/

namespace Handover.Registry

variable {g : Registry} {id other : MigrationId} {m t : Migration} {r : ResourceRef}
  {past : List Migration}

/-! ## Operations -/

/-- What may be done to a registry without any check. -/
inductive Operation where
  | register (m : Migration)
  | finish (id : MigrationId) (ending : Ending)
  | prune (policy : Retention) (now : Nat)

/-- The registry after an operation. -/
def operate (g : Registry) : Operation → Registry
  | .register m => g.register m
  | .finish id ending => (g.finish id ending).2
  | .prune policy now => (g.prune policy now).2

/-- The registry after operations, from nothing. -/
def ofOperations (operations : List Operation) : Registry :=
  operations.foldl operate empty

/-- The migration that an operation registers. -/
def Operation.registered? : Operation → Option Migration
  | .register m => some m
  | .finish .. | .prune .. => none

/-- The migrations that operations have registered, as they were then, in that order. -/
def registered (operations : List Operation) : List Migration :=
  operations.filterMap Operation.registered?

/-- Of some migrations, the last one that was executing and has an object as its source or its
destination. -/
def lastClaim? (past : List Migration) (r : ResourceRef) : Option Migration :=
  (past.filter fun m => !m.isTerminal && m.names r).getLast?

/-- A migration that was executing is the last one to claim what it names. -/
theorem lastClaim?_concat (past : List Migration) (m : Migration) (r : ResourceRef) :
    lastClaim? (past ++ [m]) r =
      if m.isTerminal = false ∧ m.names r = true then some m else lastClaim? past r := by
  unfold lastClaim?
  rw [List.filter_append]
  by_cases hclaims : m.isTerminal = false ∧ m.names r = true
  · rw [if_pos hclaims, List.filter_cons_of_pos (by simp [hclaims])]
    exact List.getLast?_concat
  · rw [if_neg hclaims, List.filter_cons_of_neg (by simpa using hclaims)]
    exact congrArg List.getLast? (List.append_nil _)

theorem of_lastClaim? (h : lastClaim? past r = some m) : m ∈ past ∧ m.names r = true := by
  have hmem := List.mem_of_getLast? h
  rw [List.mem_filter, Bool.and_eq_true] at hmem
  exact ⟨hmem.1, hmem.2.2⟩

/-! ## What is kept track of -/

/-- A registry after some migrations were registered in it: those that are known have the objects
that they were registered with, and an object is owned by the last one to claim it, if that is
executing. -/
structure Tracks (g : Registry) (past : List Migration) : Prop where
  identified : g.Identified
  same_objects : ∀ t ∈ past, ∀ m, g.get? t.id = some m → m.src = t.src ∧ m.dst = t.dst
  owner_iff : ∀ r id, g.ownerOf? r = some id ↔
    (lastClaim? past r).map (·.id) = some id ∧ g.Executing id

theorem ownerOf?_empty (r : ResourceRef) : empty.ownerOf? r = none :=
  rfl

theorem tracks_empty : empty.Tracks [] where
  identified := identified_empty
  same_objects := fun _ h => absurd h List.not_mem_nil
  owner_iff := fun r id => by
    rw [ownerOf?_empty]
    exact ⟨fun h => (nomatch h), fun ⟨h, _⟩ => nomatch h⟩

/-- An owner is executing and names what it owns. -/
theorem Tracks.of_ownerOf? (h : g.Tracks past) (howner : g.ownerOf? r = some id) :
    ∃ m, g.get? id = some m ∧ m.isTerminal = false ∧ m.names r = true := by
  obtain ⟨hclaim, m, hm, hexecuting⟩ := (h.owner_iff r id).1 howner
  obtain ⟨t, ht, rfl⟩ := Option.map_eq_some_iff.1 hclaim
  obtain ⟨hpast, hnames⟩ := of_lastClaim? ht
  obtain ⟨hsrc, hdst⟩ := h.same_objects t hpast m hm
  refine ⟨m, hm, hexecuting, ?_⟩
  rwa [Migration.names_iff, hsrc, hdst, ← Migration.names_iff]

theorem executing_register_iff (g : Registry) (m : Migration) (id : MigrationId) :
    (g.register m).Executing id ↔ if id = m.id then m.isTerminal = false else g.Executing id := by
  unfold Executing
  rw [get?_register]
  split
  · simp
  · exact Iff.rfl

/-- A new migration claims what it names, if it is executing. -/
theorem Tracks.register (h : g.Tracks past) (hnew : ∀ t ∈ past, t.id ≠ m.id) :
    (g.register m).Tracks (past ++ [m]) := by
  -- nobody has claimed anything under the new identifier yet
  have hunclaimed : ∀ r, (lastClaim? past r).map (·.id) ≠ some m.id := fun r hclaim => by
    obtain ⟨t, ht, hid⟩ := Option.map_eq_some_iff.1 hclaim
    exact hnew t (of_lastClaim? ht).1 hid
  have hothers : ∀ r id, g.ownerOf? r = some id ↔
      (lastClaim? past r).map (·.id) = some id ∧ (g.register m).Executing id := by
    intro r id
    rw [h.owner_iff, executing_register_iff]
    by_cases hid : id = m.id
    · subst hid
      exact iff_of_false (fun hclaim => hunclaimed r hclaim.1) fun hclaim => hunclaimed r hclaim.1
    · rw [if_neg hid]
  refine ⟨h.identified.register m, fun t ht m' hm' => ?_, fun r id => ?_⟩
  · rw [get?_register] at hm'
    rcases List.mem_append.1 ht with ht | ht
    · rw [if_neg (hnew t ht)] at hm'
      exact h.same_objects t ht m' hm'
    · obtain rfl := List.mem_singleton.1 ht
      rw [if_pos rfl] at hm'
      cases hm'
      exact ⟨rfl, rfl⟩
  · rw [lastClaim?_concat]
    by_cases hterminal : m.isTerminal = true
    · rw [ownerOf?_register_of_isTerminal hterminal, if_neg (by simp [hterminal])]
      exact hothers r id
    · have hexecuting : m.isTerminal = false := Bool.eq_false_iff.2 hterminal
      rw [ownerOf?_register g (Migration.isTerminal_eq_false_iff.1 hexecuting)]
      by_cases hnames : m.names r = true
      · -- the object is the newcomer's, whoever had it before
        have hmine : (if r = m.dst then some m.id else if r = m.src then some m.id
            else g.ownerOf? r) = some m.id := by
          rcases Migration.names_iff.1 hnames with rfl | rfl <;> simp
        rw [hmine, if_pos ⟨hexecuting, hnames⟩, Option.map_some]
        constructor
        · rintro ⟨rfl⟩
          exact ⟨rfl, (executing_register_iff g m m.id).2 (by rw [if_pos rfl, hexecuting])⟩
        · exact And.left
      · obtain ⟨hsrc, hdst⟩ := not_or.1 (mt Migration.names_iff.2 hnames)
        rw [if_neg (Ne.symm hdst), if_neg (Ne.symm hsrc), if_neg fun h => hnames h.2]
        exact hothers r id

theorem executing_finish_iff (g : Registry) (id other : MigrationId) (ending : Ending) :
    (g.finish id ending).2.Executing other ↔ other ≠ id ∧ g.Executing other := by
  constructor
  · rintro ⟨m, hm, hexecuting⟩
    obtain ⟨hother, hget⟩ := of_get?_finish hm hexecuting
    exact ⟨hother, m, hget, hexecuting⟩
  · rintro ⟨hother, m, hm, hexecuting⟩
    exact ⟨m, by rw [get?_finish, if_neg hother, hm], hexecuting⟩

/-- A migration that ends gives up what it owns, and nothing else. -/
theorem Tracks.finish (h : g.Tracks past) (id : MigrationId) (ending : Ending) :
    (g.finish id ending).2.Tracks past := by
  by_cases hknown : ∃ m, g.get? id = some m ∧ m.isTerminal = false
  · obtain ⟨m, hm, hexecuting⟩ := hknown
    refine ⟨h.identified.finish id ending, fun t ht m' hm' => ?_, fun r other => ?_⟩
    · rw [get?_finish] at hm'
      split at hm'
      · obtain ⟨m'', hm'', rfl⟩ := Option.map_eq_some_iff.1 hm'
        exact h.same_objects t ht m'' hm''
      · exact h.same_objects t ht m' hm'
    · have howns : g.ownerOf? r = some id → m.names r = true := fun howner => by
        obtain ⟨m', hm', -, hnames⟩ := h.of_ownerOf? howner
        rwa [Option.some.inj (hm.symm.trans hm')]
      have howner : (g.finish id ending).2.ownerOf? r = some other ↔
          other ≠ id ∧ g.ownerOf? r = some other := by
        rw [ownerOf?_finish hm hexecuting]
        by_cases hid : g.ownerOf? r = some id
        · rw [if_pos ⟨howns hid, hid⟩, hid]
          exact ⟨nofun, fun ⟨hne, heq⟩ => absurd (Option.some.inj heq).symm hne⟩
        · rw [if_neg fun h => hid h.2]
          refine ⟨fun hother => ⟨?_, hother⟩, And.right⟩
          rintro rfl
          exact hid hother
      rw [howner, h.owner_iff, executing_finish_iff]
      tauto
  · rwa [finish_of_not_executing hknown]

/-- Eviction takes nothing from executing migrations. -/
theorem Tracks.prune (h : g.Tracks past) (policy : Retention) (now : Nat) :
    (g.prune policy now).2.Tracks past := by
  refine ⟨h.identified.prune policy now,
    fun t ht m hm => h.same_objects t ht m (get?_of_get?_prune hm), fun r id => ?_⟩
  have hexecuting : (g.prune policy now).2.Executing id ↔ g.Executing id :=
    ⟨fun ⟨m, hm, hexecuting⟩ => ⟨m, get?_of_get?_prune hm, hexecuting⟩,
      fun ⟨m, hm, hexecuting⟩ => ⟨m, h.identified.get?_prune hm hexecuting policy now, hexecuting⟩⟩
  rw [hexecuting]
  exact h.owner_iff r id

/-- An operation that registers a migration, if any, under a new identifier. -/
theorem Tracks.operate (h : g.Tracks past) (operation : Operation)
    (hnew : ∀ m ∈ operation.registered?, ∀ t ∈ past, t.id ≠ m.id) :
    (g.operate operation).Tracks (past ++ operation.registered?.toList) := by
  cases operation with
  | register m => exact h.register (hnew m rfl)
  | finish id ending =>
    rw [Operation.registered?, Option.toList_none, List.append_nil]
    exact h.finish id ending
  | prune policy now =>
    rw [Operation.registered?, Option.toList_none, List.append_nil]
    exact h.prune policy now

/-- Over any operations that register migrations under new identifiers it is kept track of all that
were registered. -/
theorem Tracks.foldl_operate (h : g.Tracks past) (operations : List Operation)
    (hnew : ((past ++ registered operations).map (·.id)).Nodup) :
    (operations.foldl Registry.operate g).Tracks (past ++ registered operations) := by
  induction operations generalizing g past with
  | nil => rwa [registered, List.filterMap_nil, List.append_nil]
  | cons operation operations ih =>
    have hregistered : registered (operation :: operations) =
        operation.registered?.toList ++ registered operations := by
      unfold registered
      cases operation <;> rfl
    rw [hregistered, ← List.append_assoc] at hnew ⊢
    refine ih (h.operate operation fun m hm t ht heq => ?_) hnew
    rw [List.map_append, List.nodup_append, List.map_append, List.nodup_append] at hnew
    exact hnew.1.2.2 t.id (List.mem_map_of_mem ht) m.id
      (List.mem_map_of_mem (Option.mem_toList.2 hm)) heq

/-- Over any registrations of migrations under new identifiers, whether their objects are free or
not, and any ends and evictions: an object is owned by the last migration that was executing when it
was registered and that names the object, if it is executing still. So what has ended, was evicted
or has nothing to do with an object does not own it, and a migration that ends takes nothing from
another one. -/
theorem last_claim_owns (operations : List Operation)
    (hnew : ((registered operations).map (·.id)).Nodup) :
    let g := ofOperations operations
    (∀ r id, g.ownerOf? r = some id ↔
      (lastClaim? (registered operations) r).map (·.id) = some id ∧
        ∃ m, g.get? id = some m ∧ m.isTerminal = false) ∧
    (∀ r id, g.ownerOf? r = some id →
      ∃ m, g.get? id = some m ∧ m.isTerminal = false ∧ (m.src = r ∨ m.dst = r)) ∧
    ∀ r id other ending, g.ownerOf? r = some other → other ≠ id →
      (g.finish id ending).2.ownerOf? r = some other := by
  intro g
  have hg : g.Tracks (registered operations) := tracks_empty.foldl_operate operations hnew
  refine ⟨hg.owner_iff, fun r id howner => ?_, fun r id other ending howner hne => ?_⟩
  · obtain ⟨m, hm, hexecuting, hnames⟩ := hg.of_ownerOf? howner
    exact ⟨m, hm, hexecuting, Migration.names_iff.1 hnames⟩
  · obtain ⟨hclaim, hexecuting⟩ := (hg.owner_iff r other).1 howner
    exact ((hg.finish id ending).owner_iff r other).2
      ⟨hclaim, (executing_finish_iff g id other ending).2 ⟨hne, hexecuting⟩⟩

/-- Three migrations are registered for one clone set; the second one takes it from the first, and
the third one has ended before. When the first one ends and is evicted, its deployment is free, and
the clone set stays with the second. -/
theorem last_claim_owns_displaced :
    let web : ResourceRef := .of .deployment "default" "web"
    let api : ResourceRef := .of .deployment "default" "api"
    let shared : ResourceRef := .of .cloneSet "default" "shared"
    let migration (number : Nat) (src : ResourceRef) : Migration :=
      .start ⟨number⟩ src shared .deploymentToCloneSet ⟨3, 1, none⟩ ⟨1, 1⟩ 0
    let before : List Operation :=
      [.register (migration 1 web), .register (migration 2 api),
        .register (.completed ⟨3⟩ web shared .deploymentToCloneSet 3 4),
        .finish ⟨1⟩ ⟨false, "boom", 5⟩]
    let last : Operation := .prune ⟨0, 0⟩ 9
    let operations := before ++ [last]
    let g := ofOperations operations
    ((registered operations).map (·.id)).Nodup ∧ g.ownerOf? shared = some ⟨2⟩ ∧
      g.ownerOf? web = none ∧
      (∃ m, g.get? ⟨2⟩ = some m ∧ m.isTerminal = false ∧ (m.src = shared ∨ m.dst = shared)) ∧
      ∀ ending, (g.finish ⟨1⟩ ending).2.ownerOf? shared = some ⟨2⟩ := by
  intro web api shared migration before last operations g
  have hnew : ((registered operations).map (·.id)).Nodup := by decide
  obtain ⟨howner, hnamed, hfinish⟩ := last_claim_owns operations hnew
  have hbefore : (ofOperations before).Identified :=
    (tracks_empty.foldl_operate before (by decide)).identified
  have hsecond : g.get? ⟨2⟩ = some (migration 2 api) :=
    hbefore.get?_prune (by decide +kernel) rfl ⟨0, 0⟩ 9
  have hshared : g.ownerOf? shared = some ⟨2⟩ :=
    (howner shared ⟨2⟩).2 ⟨by decide +kernel, migration 2 api, hsecond, rfl⟩
  have hweb : g.ownerOf? web = none := by
    rw [Option.eq_none_iff_forall_ne_some]
    intro id hid
    obtain ⟨hclaim, m, hm, hexecuting⟩ := (howner web id).1 hid
    have hlast : (lastClaim? (registered operations) web).map (·.id) = some ⟨1⟩ := by
      decide +kernel
    obtain rfl : id = ⟨1⟩ := Option.some.inj (hclaim.symm.trans hlast)
    -- the last one to claim the deployment has ended
    have hended : (ofOperations before).get? ⟨1⟩ =
        some ((migration 1 web).finish ⟨false, "boom", 5⟩) := by
      decide +kernel
    have hm : ((ofOperations before).prune ⟨0, 0⟩ 9).2.get? ⟨1⟩ = some m := hm
    rw [Option.some.inj ((get?_of_get?_prune hm).symm.trans hended)] at hexecuting
    cases hexecuting
  exact ⟨hnew, hshared, hweb, hnamed shared ⟨2⟩ hshared,
    fun ending => hfinish shared ⟨1⟩ ⟨2⟩ ending hshared (by decide)⟩

end Handover.Registry
