/-!
# Tables

A `Table κ ν` is a finite map that remembers the order in which its keys first came. No key occurs
twice, which is part of the type. The view of a table is `get?`; `get?_insert`, `get?_erase`,
`get?_modify` and `get?_keep` say what each operation does to it.
-/

namespace Handover

/-- A finite map as a list of its entries, each key once. -/
structure Table (κ ν : Type) where
  entries : List (κ × ν)
  keys_nodup : (entries.map Prod.fst).Nodup

namespace Table

variable {κ ν : Type}

/-- The table without entries. -/
def empty : Table κ ν :=
  ⟨[], List.nodup_nil⟩

instance : Inhabited (Table κ ν) :=
  ⟨empty⟩

instance : EmptyCollection (Table κ ν) :=
  ⟨empty⟩

/-- The keys, in the order in which they first came. -/
def keys (t : Table κ ν) : List κ :=
  t.entries.map Prod.fst

/-- The values, in the order of their keys. -/
def values (t : Table κ ν) : List ν :=
  t.entries.map Prod.snd

/-- The number of entries. -/
def size (t : Table κ ν) : Nat :=
  t.entries.length

/-- Keep the entries that pass a test. -/
def keep (t : Table κ ν) (p : κ → ν → Bool) : Table κ ν where
  entries := t.entries.filter fun e => p e.1 e.2
  keys_nodup := t.keys_nodup.sublist (List.filter_sublist.map _)

/-- Change every value, given its key. -/
def mapValues (t : Table κ ν) (f : κ → ν → ν) : Table κ ν where
  entries := t.entries.map fun e => (e.1, f e.1 e.2)
  keys_nodup := by
    have h : (t.entries.map fun e => (e.1, f e.1 e.2)).map Prod.fst = t.entries.map Prod.fst := by
      simp [Function.comp_def]
    exact h ▸ t.keys_nodup

variable [DecidableEq κ]

/-- The value at a key. -/
def get? (t : Table κ ν) (k : κ) : Option ν :=
  (t.entries.find? fun e => e.1 = k).map Prod.snd

/-- Whether a key has a value. -/
def contains (t : Table κ ν) (k : κ) : Bool :=
  (t.get? k).isSome

/-- Change the value at a key, if there is one. -/
def modify (t : Table κ ν) (k : κ) (f : ν → ν) : Table κ ν :=
  t.mapValues fun l v => if l = k then f v else v

/-- Remove a key. -/
def erase (t : Table κ ν) (k : κ) : Table κ ν :=
  t.keep fun l _ => l ≠ k

theorem get?_eq_none_iff {t : Table κ ν} {k : κ} : t.get? k = none ↔ k ∉ t.keys := by
  simp only [get?, keys, Option.map_eq_none_iff, List.find?_eq_none, decide_eq_true_eq,
    List.mem_map, not_exists, not_and]

theorem contains_eq_false_iff {t : Table κ ν} {k : κ} : t.contains k = false ↔ k ∉ t.keys := by
  simp [contains, get?_eq_none_iff]

/-- Set the value at a key: in place if the key is there, at the end if it is not. -/
def insert (t : Table κ ν) (k : κ) (v : ν) : Table κ ν :=
  if h : t.contains k then t.modify k fun _ => v
  else
    { entries := t.entries ++ [(k, v)]
      keys_nodup := by
        have hk : k ∉ t.entries.map Prod.fst := contains_eq_false_iff.1 (by simpa using h)
        rw [List.map_append, List.nodup_append]
        refine ⟨t.keys_nodup, by simp, fun a ha b hb hab => hk ?_⟩
        rw [List.map_singleton, List.mem_singleton] at hb
        rwa [hab, hb] at ha }

/-! ## The view of each operation -/

@[simp]
theorem get?_empty (k : κ) : (empty : Table κ ν).get? k = none :=
  rfl

theorem get?_mapValues (t : Table κ ν) (f : κ → ν → ν) (k : κ) :
    (t.mapValues f).get? k = (t.get? k).map (f k) := by
  obtain ⟨entries, nodup⟩ := t
  simp only [get?, mapValues]
  clear nodup
  induction entries with
  | nil => rfl
  | cons e es ih =>
    by_cases h : e.1 = k
    · simp [h]
    · simpa [h] using ih

theorem get?_modify (t : Table κ ν) (k l : κ) (f : ν → ν) :
    (t.modify k f).get? l = if l = k then (t.get? l).map f else t.get? l := by
  rw [modify, get?_mapValues]
  split
  · rfl
  · exact Option.map_id'

theorem get?_erase (t : Table κ ν) (k l : κ) :
    (t.erase k).get? l = if l = k then none else t.get? l := by
  obtain ⟨entries, nodup⟩ := t
  simp only [get?, erase, keep]
  clear nodup
  induction entries with
  | nil => simp
  | cons e es ih =>
    by_cases h : e.1 = k
    · by_cases hl : l = k
      · simp [hl]
      · have hkl : ¬ k = l := fun hkl => hl hkl.symm
        simpa [h, hl, hkl] using ih
    · by_cases hl : e.1 = l
      · subst hl
        simp [h]
      · simpa [h, hl] using ih

theorem get?_insert (t : Table κ ν) (k l : κ) (v : ν) :
    (t.insert k v).get? l = if l = k then some v else t.get? l := by
  unfold insert
  split
  · next h =>
    rw [get?_modify]
    split
    · next hl =>
      obtain ⟨w, hw⟩ := Option.isSome_iff_exists.1 h
      rw [hl, hw]
      rfl
    · rfl
  · next h =>
    have hk : t.get? k = none := by simpa [contains] using h
    by_cases hl : l = k
    · subst hl
      simp only [get?, Option.map_eq_none_iff] at hk
      simp [get?, List.find?_append, hk]
    · have hkl : ¬ k = l := fun hkl => hl hkl.symm
      simp [get?, List.find?_append, hl, hkl]

theorem get?_eq_some_iff {t : Table κ ν} {k : κ} {v : ν} :
    t.get? k = some v ↔ (k, v) ∈ t.entries := by
  obtain ⟨entries, nodup⟩ := t
  simp only [get?]
  induction entries with
  | nil => simp
  | cons e es ih =>
    rw [List.map_cons, List.nodup_cons] at nodup
    by_cases h : e.1 = k
    · subst h
      have hes : ∀ w, (e.1, w) ∉ es := fun w hw => nodup.1 (List.mem_map.2 ⟨_, hw, rfl⟩)
      constructor
      · intro hv
        rw [List.find?_cons_of_pos (by simp)] at hv
        rw [← Option.some.inj hv]
        exact List.mem_cons_self
      · intro hv
        rcases List.mem_cons.1 hv with hv | hv
        · rw [← hv, List.find?_cons_of_pos (by simp), Option.map_some]
        · exact absurd hv (hes v)
    · have hk : (k, v) ≠ e := fun he => h (by rw [← he])
      rw [List.find?_cons_of_neg (by simpa using h), List.mem_cons, or_iff_right hk]
      exact ih nodup.2

theorem contains_of_get?_eq_some {t : Table κ ν} {k : κ} {v : ν} (h : t.get? k = some v) :
    t.contains k = true :=
  Option.isSome_of_eq_some h

theorem not_contains_of_get?_eq_none {t : Table κ ν} {k : κ} (h : t.get? k = none) :
    ¬ t.contains k = true :=
  Bool.eq_false_iff.1 (contains_eq_false_iff.2 (get?_eq_none_iff.1 h))

/-- Setting the value at a key that is there keeps all keys, in their order. -/
theorem keys_insert_of_get?_eq_some {t : Table κ ν} {k : κ} {v : ν} (h : t.get? k = some v)
    (w : ν) : (t.insert k w).keys = t.keys := by
  unfold insert
  rw [dif_pos (contains_of_get?_eq_some h)]
  simp only [keys, modify, mapValues, List.map_map, Function.comp_def]

/-- Setting the value at a key that is not there puts it at the end. -/
theorem entries_insert_of_get?_eq_none {t : Table κ ν} {k : κ} (h : t.get? k = none) (v : ν) :
    (t.insert k v).entries = t.entries ++ [(k, v)] := by
  unfold insert
  rw [dif_neg (not_contains_of_get?_eq_none h)]

theorem get?_keep (t : Table κ ν) (p : κ → ν → Bool) (k : κ) :
    (t.keep p).get? k = (t.get? k).filter (p k) := by
  apply Option.ext
  intro v
  rw [get?_eq_some_iff, Option.filter_eq_some_iff, get?_eq_some_iff]
  simp [keep]

end Table

end Handover
