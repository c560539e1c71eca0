/-!
# Sorted associations

Lists of entries under text keys, sorted by key with each key once, so that two of them with the
same entries are equal. `Labels` are such a list of texts, with the order in the type. Main
statements: inserting keeps the order (`pairwise_insertSorted`), of several entries with a key the
last one counts (`find?_ofEntries`), and building `Labels` from their own entries gives them back
(`Labels.ofEntries_entries`).
-/

namespace Handover

namespace Keyed

variable {α : Type}

/-- Whether entries are sorted by key, each key once. -/
def Sorted (entries : List (String × α)) : Prop :=
  entries.Pairwise fun a b => a.1 < b.1

/-- Set the value at a key of a sorted list. -/
def insertSorted (key : String) (value : α) : List (String × α) → List (String × α)
  | [] => [(key, value)]
  | e :: rest =>
    if key < e.1 then (key, value) :: e :: rest
    else if key = e.1 then (key, value) :: rest
    else e :: insertSorted key value rest

/-- The sorted form of a list of entries, of which the last one with a key counts. -/
def ofEntries (entries : List (String × α)) : List (String × α) :=
  entries.foldl (fun acc e => insertSorted e.1 e.2 acc) []

/-- The value at a key. -/
def find? (key : String) (entries : List (String × α)) : Option α :=
  (entries.find? fun e => e.1 = key).map Prod.snd

theorem mem_insertSorted {key : String} {value : α} {entries : List (String × α)}
    {e : String × α} (h : e ∈ insertSorted key value entries) : e = (key, value) ∨ e ∈ entries := by
  induction entries with
  | nil => simpa [insertSorted] using h
  | cons d rest ih =>
    simp only [insertSorted] at h
    split at h
    · simpa using h
    · split at h
      · rcases List.mem_cons.1 h with h | h
        · exact .inl h
        · exact .inr (List.mem_cons_of_mem _ h)
      · rcases List.mem_cons.1 h with h | h
        · exact .inr (h ▸ List.mem_cons_self)
        · exact (ih h).imp id (List.mem_cons_of_mem _)

theorem pairwise_insertSorted (key : String) (value : α) {entries : List (String × α)}
    (h : Sorted entries) : Sorted (insertSorted key value entries) := by
  induction entries with
  | nil => simp [insertSorted, Sorted]
  | cons d rest ih =>
    obtain ⟨hd, hrest⟩ := List.pairwise_cons.1 h
    simp only [insertSorted]
    split
    · next hlt =>
      refine List.pairwise_cons.2 ⟨fun e he => ?_, h⟩
      rcases List.mem_cons.1 he with rfl | he
      · exact hlt
      · exact String.lt_trans hlt (hd e he)
    · next hlt =>
      split
      · next heq => exact List.pairwise_cons.2 ⟨fun e he => heq ▸ hd e he, hrest⟩
      · next hne =>
        refine List.pairwise_cons.2 ⟨fun e he => ?_, ih hrest⟩
        rcases mem_insertSorted he with rfl | he
        · exact Decidable.byContradiction fun hge =>
            hne (String.le_antisymm (String.not_lt.1 hge) (String.not_lt.1 hlt))
        · exact hd e he

theorem insertSorted_eq_append {key : String} (value : α) {entries : List (String × α)}
    (h : ∀ e ∈ entries, e.1 < key) :
    insertSorted key value entries = entries ++ [(key, value)] := by
  induction entries with
  | nil => rfl
  | cons d rest ih =>
    have hd : d.1 < key := h d List.mem_cons_self
    have hge : ¬ key < d.1 := fun hlt => String.lt_irrefl _ (String.lt_trans hlt hd)
    have hne : key ≠ d.1 := fun heq => String.lt_irrefl _ (heq ▸ hd)
    simp only [insertSorted, if_neg hge, if_neg hne, List.cons_append]
    rw [ih fun e he => h e (List.mem_cons_of_mem _ he)]

theorem sorted_foldl_insertSorted (entries : List (String × α)) {acc : List (String × α)}
    (h : Sorted acc) : Sorted (entries.foldl (fun acc e => insertSorted e.1 e.2 acc) acc) := by
  induction entries generalizing acc with
  | nil => exact h
  | cons e rest ih => exact ih (pairwise_insertSorted e.1 e.2 h)

theorem sorted_ofEntries (entries : List (String × α)) : Sorted (ofEntries entries) :=
  sorted_foldl_insertSorted entries List.Pairwise.nil

theorem foldl_insertSorted_of_sorted {entries acc : List (String × α)}
    (h : Sorted (acc ++ entries)) :
    entries.foldl (fun acc e => insertSorted e.1 e.2 acc) acc = acc ++ entries := by
  induction entries generalizing acc with
  | nil => simp
  | cons e rest ih =>
    have hlt : ∀ d ∈ acc, d.1 < e.1 := fun d hd =>
      (List.pairwise_append.1 h).2.2 d hd e List.mem_cons_self
    rw [List.foldl_cons, insertSorted_eq_append e.2 hlt, ih (by simpa using h)]
    simp

theorem mem_of_mem_ofEntries {entries : List (String × α)} {e : String × α}
    (h : e ∈ ofEntries entries) : e ∈ entries := by
  have fold : ∀ (entries acc : List (String × α)),
      e ∈ entries.foldl (fun acc e => insertSorted e.1 e.2 acc) acc → e ∈ acc ∨ e ∈ entries := by
    intro entries
    induction entries with
    | nil => exact fun acc h => .inl h
    | cons d rest ih =>
      intro acc h
      rcases ih _ h with h | h
      · rcases mem_insertSorted h with rfl | h
        · exact .inr List.mem_cons_self
        · exact .inl h
      · exact .inr (List.mem_cons_of_mem _ h)
  exact (fold entries [] h).resolve_left List.not_mem_nil

theorem ofEntries_of_sorted {entries : List (String × α)} (h : Sorted entries) :
    ofEntries entries = entries :=
  @foldl_insertSorted_of_sorted α entries [] h

theorem nodup_keys_of_sorted {entries : List (String × α)} (h : Sorted entries) :
    (entries.map Prod.fst).Nodup := by
  refine List.pairwise_map.2 (List.Pairwise.imp ?_ h)
  intro a b hlt heq
  exact String.lt_irrefl b.1 (heq ▸ hlt)

theorem insertSorted_perm {key : String} (value : α) {entries : List (String × α)}
    (h : ∀ e ∈ entries, e.1 ≠ key) :
    (insertSorted key value entries).Perm ((key, value) :: entries) := by
  induction entries with
  | nil => exact .refl _
  | cons e rest ih =>
    have hne : key ≠ e.1 := fun heq => h e List.mem_cons_self heq.symm
    rw [insertSorted, if_neg hne]
    split
    · exact .refl _
    · exact ((ih fun d hd => h d (List.mem_cons_of_mem e hd)).cons e).trans (.swap ..)

theorem ofEntries_perm {entries : List (String × α)} (h : (entries.map Prod.fst).Nodup) :
    (ofEntries entries).Perm entries := by
  have fold : ∀ (entries acc : List (String × α)), ((acc ++ entries).map Prod.fst).Nodup →
      (entries.foldl (fun acc e => insertSorted e.1 e.2 acc) acc).Perm (acc ++ entries) := by
    intro entries
    induction entries with
    | nil => intro acc _; simp
    | cons e rest ih =>
      intro acc hnodup
      have hnew : ∀ d ∈ acc, d.1 ≠ e.1 := by
        rw [List.map_append, List.nodup_append] at hnodup
        exact fun d hd => hnodup.2.2 _ (List.mem_map_of_mem hd) _ List.mem_cons_self
      have hstep : (insertSorted e.1 e.2 acc ++ rest).Perm (acc ++ e :: rest) :=
        ((insertSorted_perm e.2 hnew).append_right rest).trans List.perm_middle.symm
      have hkeys : ((insertSorted e.1 e.2 acc ++ rest).map Prod.fst).Nodup :=
        (hstep.map Prod.fst).nodup_iff.2 hnodup
      exact (ih _ hkeys).trans hstep
  exact fold entries [] h

/-- Entries in any order make the sorted list of them, if no key occurs twice. -/
theorem ofEntries_eq_of_perm {entries sorted : List (String × α)} (hperm : entries.Perm sorted)
    (h : Sorted sorted) : ofEntries entries = sorted := by
  have hnodup : (entries.map Prod.fst).Nodup :=
    (hperm.map Prod.fst).nodup_iff.2 (nodup_keys_of_sorted h)
  refine ((ofEntries_perm hnodup).trans hperm).eq_of_pairwise ?_ (sorted_ofEntries entries) h
  exact fun a b _ _ hlt hgt => absurd (String.lt_trans hlt hgt) (String.lt_irrefl _)

/-! ## Values at keys -/

@[simp]
theorem find?_nil (key : String) : find? key ([] : List (String × α)) = none :=
  rfl

@[simp]
theorem find?_cons (key : String) (e : String × α) (rest : List (String × α)) :
    find? key (e :: rest) = if e.1 = key then some e.2 else find? key rest := by
  by_cases h : e.1 = key <;> simp [find?, h]

theorem find?_append (key : String) (as bs : List (String × α)) :
    find? key (as ++ bs) = (find? key as).or (find? key bs) := by
  simp only [find?, List.find?_append, Option.map_or]

theorem mem_of_find? {key : String} {value : α} {entries : List (String × α)}
    (h : find? key entries = some value) : (key, value) ∈ entries := by
  obtain ⟨e, he, rfl⟩ := Option.map_eq_some_iff.1 h
  obtain rfl : e.1 = key := by simpa using List.find?_some he
  exact List.mem_of_find?_eq_some he

theorem find?_eq_none {key : String} {entries : List (String × α)}
    (h : ∀ e ∈ entries, e.1 ≠ key) : find? key entries = none := by
  simpa [find?] using h

theorem find?_insertSorted (key l : String) (value : α) (entries : List (String × α)) :
    find? l (insertSorted key value entries) =
      if key = l then some value else find? l entries := by
  induction entries with
  | nil => simp [insertSorted, find?_cons]
  | cons e rest ih =>
    simp only [insertSorted]
    split
    · rw [find?_cons]
    · split
      · next heq =>
        by_cases hl : key = l
        · simp [find?_cons, hl]
        · simp [find?_cons, hl, ← heq]
      · next hne =>
        rw [find?_cons, find?_cons, ih]
        by_cases hl : key = l
        · simp [hl, show ¬ e.1 = l from fun h => hne (hl.trans h.symm)]
        · simp [hl]

/-- Of several entries with a key, the last one counts. -/
@[simp]
theorem find?_ofEntries (key : String) (entries : List (String × α)) :
    find? key (ofEntries entries) = find? key entries.reverse := by
  have fold : ∀ (entries acc : List (String × α)),
      find? key (entries.foldl (fun acc e => insertSorted e.1 e.2 acc) acc) =
        (find? key entries.reverse).or (find? key acc) := by
    intro entries
    induction entries with
    | nil => simp
    | cons e rest ih =>
      intro acc
      rw [List.foldl_cons, ih, find?_insertSorted, List.reverse_cons, find?_append, Option.or_assoc]
      congr 1
      rw [find?_cons]
      split <;> rfl
  exact (fold entries []).trans (by simp)

theorem find?_reverse_of_sorted (key : String) {entries : List (String × α)}
    (h : Sorted entries) : find? key entries.reverse = find? key entries := by
  rw [← find?_ofEntries, ofEntries_of_sorted h]

theorem find?_of_mem {entries : List (String × α)} (h : Sorted entries) {e : String × α}
    (he : e ∈ entries) : find? e.1 entries = some e.2 := by
  induction entries with
  | nil => exact absurd he List.not_mem_nil
  | cons d rest ih =>
    obtain ⟨hd, hrest⟩ := List.pairwise_cons.1 h
    rw [find?_cons]
    obtain rfl | he := List.mem_cons.1 he
    · exact if_pos rfl
    · rw [if_neg fun heq => String.lt_irrefl _ (heq ▸ hd e he), ih hrest he]

/-- Sorted lists are determined by their values at keys. -/
theorem ext_find? {as bs : List (String × α)} (ha : Sorted as) (hb : Sorted bs)
    (h : ∀ key, find? key as = find? key bs) : as = bs := by
  have hmem : ∀ e, e ∈ as ↔ e ∈ bs := fun e =>
    ⟨fun he => mem_of_find? ((h e.1).symm.trans (find?_of_mem ha he)),
      fun he => mem_of_find? ((h e.1).trans (find?_of_mem hb he))⟩
  have nodup : ∀ {entries : List (String × α)}, Sorted entries → entries.Nodup := fun hs =>
    (List.pairwise_map.1 (nodup_keys_of_sorted hs)).imp fun hne heq => hne (congrArg Prod.fst heq)
  refine ((List.perm_ext_iff_of_nodup (nodup ha) (nodup hb)).2 hmem).eq_of_pairwise ?_ ha hb
  exact fun a b _ _ hlt hgt => absurd (String.lt_trans hlt hgt) (String.lt_irrefl _)

theorem find?_map {β : Type} (key : String) (f : String → α → β) (entries : List (String × α)) :
    find? key (entries.map fun e => (e.1, f e.1 e.2)) = (find? key entries).map (f key) := by
  induction entries with
  | nil => rfl
  | cons e rest ih =>
    rw [List.map_cons, find?_cons, find?_cons, ih]
    split
    · next h => rw [← h]; rfl
    · rfl

theorem find?_filter (key : String) (keep : String → Bool) (entries : List (String × α)) :
    find? key (entries.filter fun e => keep e.1) =
      if keep key then find? key entries else none := by
  induction entries with
  | nil => simp
  | cons e rest ih =>
    by_cases hkey : e.1 = key
    · subst hkey
      by_cases hkeep : keep e.1 <;> simp [find?_cons, hkeep, ih]
    · by_cases hkeep : keep e.1 <;> simp [find?_cons, hkeep, hkey, ih]

end Keyed

/-- Texts under text keys, such as the labels of an object. -/
structure Labels where
  entries : List (String × String)
  sorted : Keyed.Sorted entries
  deriving DecidableEq

namespace Labels

/-- No labels. -/
def empty : Labels :=
  ⟨[], List.Pairwise.nil⟩

instance : Inhabited Labels :=
  ⟨empty⟩

/-- Labels from entries in any order, of which the last one with a key counts. -/
def ofEntries (entries : List (String × String)) : Labels :=
  ⟨Keyed.ofEntries entries, Keyed.sorted_ofEntries entries⟩

@[simp]
theorem ofEntries_entries (l : Labels) : ofEntries l.entries = l := by
  obtain ⟨entries, sorted⟩ := l
  simp only [ofEntries, Keyed.ofEntries_of_sorted sorted]

end Labels

end Handover
