import Handover.Proofs.Registry.Exclusive

/-!
# Retention

The finished migrations stand in order: by the time of their end, and those that ended at the same
time by their identifiers. What a policy evicts is an initial segment of them, and it is no longer
than the policy asks for: after an eviction none that is left is too old and there are not too many,
and whatever is gone either was too old or had to go for the number. A second eviction at the same
time finds nothing to do (`Registry.retention_evicts_oldest`). All that is asked of the registry is
that it knows every migration by its own identifier (`Registry.Identified`), which registering,
ending and evicting leave so.
-/

namespace Handover

/-! ## Initial segments -/

section

variable {α : Type} {p : α → Bool} {l : List α} {a : α}

theorem drop_length_takeWhile (p : α → Bool) (l : List α) :
    l.drop (l.takeWhile p).length = l.dropWhile p := by
  calc l.drop (l.takeWhile p).length
      = (l.takeWhile p ++ l.dropWhile p).drop (l.takeWhile p).length := by
        rw [List.takeWhile_append_dropWhile]
    _ = l.dropWhile p := List.drop_left

/-- Of a list in order, the longest initial segment with a property has all that have it, if it is
passed on to whatever comes before. -/
theorem eq_false_of_mem_dropWhile {R : α → α → Prop} (hl : l.Pairwise R)
    (hp : ∀ a b, R a b → p b = true → p a = true) (ha : a ∈ l.dropWhile p) : p a = false := by
  induction l with
  | nil => cases ha
  | cons b l ih =>
    obtain ⟨hb, hl⟩ := List.pairwise_cons.1 hl
    rw [List.dropWhile_cons] at ha
    split at ha
    · exact ih hl ha
    · next hnot =>
      rcases List.mem_cons.1 ha with rfl | ha
      · exact Bool.eq_false_iff.2 hnot
      · exact Bool.eq_false_iff.2 fun hpa => hnot (hp b a (hb a ha) hpa)

end

namespace Registry

variable {g : Registry} {id : MigrationId} {policy : Retention} {now : Nat} {x y : Finished}

/-! ## The order of ends -/

/-- One migration ended before another one, or at the same time and has the smaller identifier. -/
def Finished.Precedes (x y : Finished) : Prop :=
  x.time < y.time ∨ x.time = y.time ∧ x.id.number < y.id.number

theorem Finished.before_iff :
    x.before y = true ↔ x.time < y.time ∨ x.time = y.time ∧ x.id.number ≤ y.id.number :=
  decide_eq_true_iff

/-- The order has no ties: two that come before each other are the same. -/
theorem Finished.before_antisymm (h : x.before y = true) (h' : y.before x = true) : x = y := by
  rw [before_iff] at h h'
  obtain ⟨time, ⟨number⟩⟩ := x
  obtain ⟨time', ⟨number'⟩⟩ := y
  dsimp only at h h'
  obtain rfl : time = time' := by omega
  obtain rfl : number = number' := by omega
  rfl

theorem Finished.before_of_precedes (h : x.Precedes y) : x.before y = true := by
  rw [before_iff]
  unfold Precedes at h
  omega

theorem Finished.precedes_of_before (h : x.before y = true) (hne : x ≠ y) : x.Precedes y := by
  by_contra hnot
  refine hne (before_antisymm h ?_)
  rw [before_iff] at h ⊢
  unfold Precedes at hnot
  omega

/-- A migration is known that ended at this time. -/
def Ended (g : Registry) (x : Finished) : Prop :=
  ∃ m e, g.get? x.id = some m ∧ m.ending = some e ∧ e.time = x.time

/-- No migration ended twice. -/
theorem Ended.eq_of_id_eq (hx : g.Ended x) (hy : g.Ended y) (hid : x.id = y.id) : x = y := by
  obtain ⟨m, e, hm, he, htime⟩ := hx
  obtain ⟨m', e', hm', he', htime'⟩ := hy
  obtain ⟨time, id⟩ := x
  obtain ⟨time', id'⟩ := y
  obtain rfl : id = id' := hid
  obtain rfl : m = m' := Option.some.inj (hm.symm.trans hm')
  obtain rfl : e = e' := Option.some.inj (he.symm.trans he')
  obtain rfl : time = time' := htime.symm.trans htime'
  rfl

/-! ## The finished migrations -/

/-- When which migrations ended, in no particular order. -/
def ends (g : Registry) : List Finished :=
  g.migrations.values.filterMap fun m => m.ending.map fun e => ⟨e.time, m.id⟩

theorem finished_perm (g : Registry) : g.finished.Perm g.ends :=
  List.mergeSort_perm _ _

theorem Identified.mem_finished_iff (h : g.Identified) : x ∈ g.finished ↔ g.Ended x := by
  rw [g.finished_perm.mem_iff, ends, List.mem_filterMap]
  constructor
  · rintro ⟨m, hm, hx⟩
    obtain ⟨e, he, rfl⟩ := Option.map_eq_some_iff.1 hx
    exact ⟨m, e, h.mem_values_iff.1 hm, he, rfl⟩
  · rintro ⟨m, e, hm, he, htime⟩
    obtain ⟨time, id⟩ := x
    obtain rfl := h id m hm
    obtain rfl : e.time = time := htime
    exact ⟨m, h.mem_values_iff.2 hm, by rw [he, Option.map_some]⟩

theorem Identified.nodup_finished (h : g.Identified) : g.finished.Nodup := by
  refine g.finished_perm.nodup_iff.2 (List.pairwise_filterMap.2 ?_)
  refine h.nodup_values.imp_of_mem fun {m m'} hm hm' hne x hx x' hx' heq => hne ?_
  obtain ⟨e, -, rfl⟩ := Option.map_eq_some_iff.1 hx
  obtain ⟨e', -, rfl⟩ := Option.map_eq_some_iff.1 hx'
  -- the same identifier stands for the same migration
  have hid : m.id = m'.id := congrArg Finished.id heq
  have hget := h.mem_values_iff.1 hm
  rw [hid, h.mem_values_iff.1 hm'] at hget
  exact (Option.some.inj hget).symm

theorem pairwise_before_finished (g : Registry) :
    g.finished.Pairwise fun x y => x.before y = true := by
  refine List.pairwise_mergeSort (fun x y z hxy hyz => ?_) (fun x y => ?_) _
  · rw [Finished.before_iff] at *
    omega
  · rw [Bool.or_eq_true, Finished.before_iff, Finished.before_iff]
    omega

/-- The finished migrations stand in order. -/
theorem Identified.pairwise_finished (h : g.Identified) :
    g.finished.Pairwise Finished.Precedes :=
  (g.pairwise_before_finished.and h.nodup_finished).imp fun ⟨hbefore, hne⟩ =>
    Finished.precedes_of_before hbefore hne

/-- There is one order in which they can stand. -/
theorem finished_eq_of_perm {l : List Finished} (hl : l.Pairwise Finished.Precedes)
    (hperm : g.ends.Perm l) : g.finished = l :=
  (g.finished_perm.trans hperm).eq_of_pairwise (fun _ _ _ _ => Finished.before_antisymm)
    g.pairwise_before_finished (hl.imp Finished.before_of_precedes)

/-- There is one list in order of what has ended. -/
theorem Identified.finished_eq (h : g.Identified) {l : List Finished}
    (hl : l.Pairwise Finished.Precedes) (hmem : ∀ x, x ∈ l ↔ g.Ended x) : g.finished = l := by
  have hnodup : l.Nodup := hl.imp fun {x y} hprecedes heq => by
    subst heq
    unfold Finished.Precedes at hprecedes
    omega
  have hperm : g.finished.Perm l :=
    (List.perm_ext_iff_of_nodup h.nodup_finished hnodup).2 fun x =>
      h.mem_finished_iff.trans (hmem x).symm
  exact finished_eq_of_perm hl (g.finished_perm.symm.trans hperm)

/-! ## How many are evicted -/

/-- How many of the finished migrations are too old. -/
def expirations (g : Registry) (policy : Retention) (now : Nat) : Nat :=
  (g.finished.takeWhile fun x => policy.ttl < now - x.time).length

/-- How many of the finished migrations a policy evicts. -/
def evictions (g : Registry) (policy : Retention) (now : Nat) : Nat :=
  g.expirations policy now + (g.finished.length - g.expirations policy now - policy.maxFinished)

theorem evicted_eq (g : Registry) (policy : Retention) (now : Nat) :
    g.evicted policy now = (g.finished.take (g.evictions policy now)).map (·.id) :=
  rfl

theorem old_of_mem_take (hx : x ∈ g.finished.take (g.expirations policy now)) :
    policy.ttl < now - x.time := by
  have htake := List.prefix_iff_eq_take.1 (List.takeWhile_prefix (l := g.finished)
    fun x => decide (policy.ttl < now - x.time))
  unfold expirations at hx
  rw [← htake] at hx
  exact of_decide_eq_true (List.all_eq_true.1 List.all_takeWhile x hx)

/-- Whatever ended after one that is not too old is not too old either. What ended later than now
has no age. -/
theorem le_ttl_of_mem_drop (hx : x ∈ g.finished.drop (g.expirations policy now)) :
    now - x.time ≤ policy.ttl := by
  unfold expirations at hx
  rw [drop_length_takeWhile] at hx
  have hyoung := eq_false_of_mem_dropWhile g.pairwise_before_finished (fun x y hbefore hold => by
    rw [Finished.before_iff] at hbefore
    rw [decide_eq_true_eq] at hold ⊢
    omega) hx
  exact not_lt.1 (of_decide_eq_false hyoung)

/-- Whatever is evicted is too old, or as many are left as may be. -/
theorem old_or_length_eq (hx : x ∈ g.finished.take (g.evictions policy now)) :
    policy.ttl < now - x.time ∨
      (g.finished.drop (g.evictions policy now)).length = policy.maxFinished := by
  by_cases hexcess : g.finished.length - g.expirations policy now ≤ policy.maxFinished
  · -- nothing has to go for the number
    have hevictions : g.evictions policy now = g.expirations policy now := by
      unfold evictions
      omega
    rw [hevictions] at hx
    exact .inl (old_of_mem_take hx)
  · refine .inr ?_
    rw [List.length_drop]
    unfold evictions
    omega

theorem length_drop_le (g : Registry) (policy : Retention) (now : Nat) :
    (g.finished.drop (g.evictions policy now)).length ≤ policy.maxFinished := by
  rw [List.length_drop]
  unfold evictions
  omega

theorem le_ttl_of_mem_kept (hx : x ∈ g.finished.drop (g.evictions policy now)) :
    now - x.time ≤ policy.ttl :=
  le_ttl_of_mem_drop (List.drop_subset_drop_left _ (Nat.le_add_right _ _) hx)

/-! ## What eviction leaves -/

theorem mem_evicted_iff :
    id ∈ g.evicted policy now ↔ ∃ x ∈ g.finished.take (g.evictions policy now), x.id = id := by
  rw [evicted_eq, List.mem_map]

/-- What has ended is evicted or left. -/
theorem Identified.mem_drop_iff (h : g.Identified) :
    x ∈ g.finished.drop (g.evictions policy now) ↔ (g.prune policy now).2.Ended x := by
  have hsplit := List.take_append_drop (g.evictions policy now) g.finished
  have hnodup := h.nodup_finished
  rw [← hsplit, List.nodup_append] at hnodup
  constructor
  · intro hx
    have hended := h.mem_finished_iff.1 (List.mem_of_mem_drop hx)
    -- of the evicted ones none has this identifier, for it would be the same
    have hkept : x.id ∉ g.evicted policy now := by
      rw [mem_evicted_iff]
      rintro ⟨y, hy, hid⟩
      have hy_ended := h.mem_finished_iff.1 (List.mem_of_mem_take hy)
      exact hnodup.2.2 y hy x hx (hy_ended.eq_of_id_eq hended hid)
    obtain ⟨m, e, hm, he, htime⟩ := hended
    exact ⟨m, e, by rw [Registry.get?_prune, if_neg hkept, hm], he, htime⟩
  · rintro ⟨m, e, hm, he, htime⟩
    rw [Registry.get?_prune] at hm
    split at hm
    · cases hm
    · next hkept =>
      have hx := h.mem_finished_iff.2 ⟨m, e, hm, he, htime⟩
      rw [← hsplit] at hx
      exact (List.mem_append.1 hx).resolve_left fun hx => hkept (mem_evicted_iff.2 ⟨x, hx, rfl⟩)

/-- The finished migrations that are left stand in the same order. -/
theorem Identified.finished_prune (h : g.Identified) (policy : Retention) (now : Nat) :
    (g.prune policy now).2.finished = g.finished.drop (g.evictions policy now) :=
  (h.prune policy now).finished_eq (h.pairwise_finished.sublist (List.drop_sublist _ _))
    fun _ => h.mem_drop_iff

theorem Identified.nodup_evicted (h : g.Identified) (policy : Retention) (now : Nat) :
    (g.evicted policy now).Nodup := by
  rw [evicted_eq]
  refine (List.nodup_map_iff_inj_on (h.nodup_finished.sublist (List.take_sublist _ _))).2 ?_
  intro x hx y hy hid
  have hx_ended := h.mem_finished_iff.1 (List.mem_of_mem_take hx)
  have hy_ended := h.mem_finished_iff.1 (List.mem_of_mem_take hy)
  exact hx_ended.eq_of_id_eq hy_ended hid

/-- As many migrations are gone as were evicted. -/
theorem Identified.size_prune (h : g.Identified) (policy : Retention) (now : Nat) :
    (g.prune policy now).1 + (g.prune policy now).2.migrations.size = g.migrations.size := by
  -- each evicted identifier is a key
  have hperm : (g.migrations.keys.filter (· ∈ g.evicted policy now)).Perm
      (g.evicted policy now) := by
    refine (List.perm_ext_iff_of_nodup (g.migrations.keys_nodup.filter _)
      (h.nodup_evicted policy now)).2 fun id => ?_
    rw [List.mem_filter, decide_eq_true_eq, and_iff_right_of_imp]
    intro hid
    obtain ⟨m, hm, -⟩ := h.isTerminal_of_mem_evicted hid
    by_contra hunknown
    cases hm.symm.trans (Table.get?_eq_none_iff.2 hunknown)
  have hcount : (g.prune policy now).1 =
      g.migrations.entries.countP fun e => e.1 ∈ g.evicted policy now := by
    unfold Table.keys at hperm
    rw [List.filter_map] at hperm
    have hlength := hperm.length_eq
    rw [List.length_map, ← List.countP_eq_length_filter] at hlength
    exact hlength.symm
  have hsize : (g.prune policy now).2.migrations.size =
      g.migrations.entries.countP fun e => ¬ decide (e.1 ∈ g.evicted policy now) = true := by
    simp only [decide_eq_true_eq]
    exact List.countP_eq_length_filter.symm
  rw [hcount, hsize]
  exact (List.length_eq_countP_add_countP _).symm

/-- To evict nothing changes nothing. -/
theorem prune_of_evicted_eq_nil (h : g.evicted policy now = []) :
    g.prune policy now = (0, g) := by
  have hkeep : g.migrations.keep (fun id _ => id ∉ g.evicted policy now) = g.migrations := by
    refine Table.ext_entries (List.filter_eq_self.2 fun e _ => decide_eq_true ?_)
    rw [h]
    exact List.not_mem_nil
  show ((g.evicted policy now).length, { g with
    migrations := g.migrations.keep fun id _ => id ∉ g.evicted policy now }) = (0, g)
  rw [hkeep, h]
  rfl

/-- If nothing is too old and there are not too many, nothing is evicted. -/
theorem prune_of_length_le (hold : ∀ x ∈ g.finished, now - x.time ≤ policy.ttl)
    (hlength : g.finished.length ≤ policy.maxFinished) : g.prune policy now = (0, g) := by
  have hexpirations : g.expirations policy now = 0 := by
    unfold expirations
    cases hfinished : g.finished with
    | nil => rfl
    | cons x l =>
      have hx : ¬ policy.ttl < now - x.time := not_lt.2 (hold x (hfinished ▸ List.mem_cons_self))
      rw [List.takeWhile_cons_of_neg (by simpa using hx)]
      rfl
  have hevictions : g.evictions policy now = 0 := by
    unfold evictions
    omega
  apply prune_of_evicted_eq_nil
  rw [evicted_eq, hevictions]
  rfl

/-- Eviction takes an initial segment of what has ended, in the order of ends and, where these tie,
of identifiers. After it none that is left is older than the policy allows, where what ended later
than now has no age, and not more are left than it allows. Whatever is gone was too old, or as many
are left as may be. Executing migrations, the owners of objects and the watched kinds are as before.
The answer is the number of migrations that are gone, and a second eviction at the same time finds
none. -/
theorem retention_evicts_oldest (h : g.Identified) (policy : Retention) (now : Nat) :
    let f := (g.prune policy now).2
    ∃ gone kept : List Finished,
      (gone ++ kept).Pairwise Finished.Precedes ∧ (∀ x, x ∈ gone ++ kept ↔ g.Ended x) ∧
      (∀ x, x ∈ kept ↔ f.Ended x) ∧
      (∀ id, f.get? id = if id ∈ gone.map (·.id) then none else g.get? id) ∧
      (∀ x ∈ kept, now - x.time ≤ policy.ttl) ∧ kept.length ≤ policy.maxFinished ∧
      (∀ x ∈ gone, policy.ttl < now - x.time ∨ kept.length = policy.maxFinished) ∧
      (∀ id m, g.get? id = some m → m.isTerminal = false → f.get? id = some m) ∧
      f.owners = g.owners ∧ f.watched = g.watched ∧
      (g.prune policy now).1 = gone.length ∧
      (g.prune policy now).1 + f.migrations.size = g.migrations.size ∧
      f.prune policy now = (0, f) := by
  intro f
  have hsplit := List.take_append_drop (g.evictions policy now) g.finished
  have hfinished : f.finished = g.finished.drop (g.evictions policy now) :=
    h.finished_prune policy now
  refine ⟨g.finished.take (g.evictions policy now), g.finished.drop (g.evictions policy now), ?_,
    fun x => ?_, fun x => h.mem_drop_iff, g.get?_prune policy now, fun x => le_ttl_of_mem_kept,
    g.length_drop_le policy now, fun x => old_or_length_eq,
    fun id m hm hexecuting => h.get?_prune hm hexecuting policy now, rfl, rfl,
    List.length_map Finished.id, h.size_prune policy now, prune_of_length_le ?_ ?_⟩
  · rw [hsplit]
    exact h.pairwise_finished
  · rw [hsplit]
    exact h.mem_finished_iff
  · rw [hfinished]
    exact fun x => le_ttl_of_mem_kept
  · rw [hfinished]
    exact g.length_drop_le policy now

/-- Nothing may grow old and one migration may be kept. The one that ended before now is too old; of
the two that ended later, at the same time, the one with the smaller identifier has to go, although
it came last. -/
theorem retention_evicts_oldest_of_tie :
    let web : ResourceRef := .of .deployment "default" "web"
    let webCs : ResourceRef := .of .cloneSet "default" "web-cs"
    let migration (number : Nat) (ending : Option Ending) : Migration :=
      { Migration.start ⟨number⟩ web webCs .deploymentToCloneSet ⟨1, 1, none⟩ ⟨1, 1⟩ 0 with ending }
    let g := [migration 1 none, migration 2 (some ⟨true, "", 5⟩), migration 4 (some ⟨true, "", 20⟩),
      migration 3 (some ⟨false, "boom", 20⟩)].foldl register empty
    let f := (g.prune ⟨0, 1⟩ 10).2
    g.Identified ∧
      ∃ gone kept : List Finished,
        (gone ++ kept).Pairwise Finished.Precedes ∧ (∀ x, x ∈ gone ++ kept ↔ g.Ended x) ∧
        (∀ x, x ∈ kept ↔ f.Ended x) ∧ gone.length = 2 ∧ kept.length ≤ 1 ∧
        [1, 2, 3, 4].filter (fun number => (f.get? ⟨number⟩).isSome) = [1, 4] ∧
        f.migrations.size = 2 ∧ f.prune ⟨0, 1⟩ 10 = (0, f) := by
  intro web webCs migration g f
  have hg : g.Identified :=
    (((identified_empty.register _).register _).register _).register _
  have hfinished : g.finished = [⟨5, ⟨2⟩⟩, ⟨20, ⟨3⟩⟩, ⟨20, ⟨4⟩⟩] := by
    have hends : g.ends = [⟨5, ⟨2⟩⟩, ⟨20, ⟨4⟩⟩, ⟨20, ⟨3⟩⟩] := by decide +kernel
    refine finished_eq_of_perm ?_ (hends ▸ by decide)
    unfold Finished.Precedes
    decide
  have hevicted : g.evicted ⟨0, 1⟩ 10 = [⟨2⟩, ⟨3⟩] := by
    unfold evicted
    rw [hfinished]
    decide
  have hleft (number : Nat) : (f.get? ⟨number⟩).isSome =
      (if number = 2 ∨ number = 3 then none else g.get? ⟨number⟩).isSome := by
    show ((g.prune ⟨0, 1⟩ 10).2.get? ⟨number⟩).isSome = _
    simp [get?_prune, hevicted]
  have hsize : g.migrations.size = 4 := rfl
  obtain ⟨gone, kept, hordered, hmem, hkept, -, -, hlength, -, -, -, -, hgone, htotal, hagain⟩ :=
    retention_evicts_oldest hg ⟨0, 1⟩ 10
  have hcount : (g.prune ⟨0, 1⟩ 10).1 = 2 := congrArg List.length hevicted
  have hrest : f.migrations.size = 2 := by
    rw [hcount, hsize] at htotal
    exact Nat.add_left_cancel (n := 2) htotal
  refine ⟨hg, gone, kept, hordered, hmem, hkept, hgone.symm.trans hcount, hlength, ?_, hrest,
    hagain⟩
  simp only [hleft]
  decide +kernel

end Registry

end Handover
