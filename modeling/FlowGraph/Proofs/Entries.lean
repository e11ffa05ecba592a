/-
What is found in a table after it was changed.

None of the lemmas on `find?` asks for the order of the keys: a search takes the first
entry of its key, and `insert` puts its entry before every other of the same key or in
the place of the first.  Only the way back from a value to its key needs keys that do
not repeat, and `insertNew` keeps those.

Keys in ascending order make a table the only one of its kind: two of them are equal as
soon as the same is found under every key.
-/
import FlowGraph.Entries
import Mathlib.Data.List.Nodup
import Mathlib.Data.List.Perm.Basic

namespace FlowGraph.Entries

variable {α : Type} {key other : String} {value : α}

@[simp] theorem find?_nil : find? key ([] : Entries α) = none := rfl

@[simp] theorem find?_cons (k : String) (v : α) (rest : Entries α) :
    find? key ((k, v) :: rest) = if k = key then some v else find? key rest := rfl

theorem contains_iff {es : Entries α} : contains key es = true ↔ ∃ v, find? key es = some v := by
  rw [contains, Option.isSome_iff_exists]

theorem not_contains_iff {es : Entries α} : contains key es = false ↔ find? key es = none := by
  rw [contains, Option.isSome_eq_false_iff, Option.isNone_iff_eq_none]

theorem contains_of_find? {es : Entries α} (h : find? key es = some value) :
    contains key es = true := contains_iff.mpr ⟨value, h⟩

/-- A table holds what its list holds. -/
theorem contains_iff_mem_keys {es : Entries α} : contains key es = true ↔ key ∈ keys es := by
  induction es with
  | nil => simp [contains, keys]
  | cons e rest ih =>
      obtain ⟨k, v⟩ := e
      rw [contains] at ih ⊢
      by_cases hk : k = key
      · simp [keys, hk]
      · simp only [find?_cons, if_neg hk, ih]
        simp [keys, Ne.symm hk]

theorem find?_of_notMem_keys {es : Entries α} (h : key ∉ keys es) : find? key es = none :=
  not_contains_iff.mp (Bool.eq_false_iff.mpr fun hc => h (contains_iff_mem_keys.mp hc))

/-! ### Putting in -/

@[simp] theorem find?_insert_self (es : Entries α) :
    find? key (insert key value es) = some value := by
  induction es with
  | nil => simp [insert]
  | cons e rest ih =>
      obtain ⟨k, v⟩ := e
      rw [insert]
      split
      · simp
      · split
        · simp
        · rename_i hk
          rw [find?_cons, if_neg hk]
          exact ih

theorem find?_insert_ne (es : Entries α) (h : other ≠ key) :
    find? other (insert key value es) = find? other es := by
  induction es with
  | nil => simp [insert, Ne.symm h]
  | cons e rest ih =>
      obtain ⟨k, v⟩ := e
      rw [insert]
      split
      · rw [find?_cons, if_neg (Ne.symm h)]
      · split
        · rename_i hk
          subst hk
          simp [Ne.symm h]
        · rw [find?_cons, find?_cons, ih]

theorem find?_insert (es : Entries α) :
    find? other (insert key value es) = if other = key then some value else find? other es := by
  by_cases h : other = key
  · subst h
    simp
  · rw [if_neg h, find?_insert_ne es h]

theorem contains_insert (es : Entries α) :
    contains other (insert key value es) = (decide (other = key) || contains other es) := by
  rw [contains, contains, find?_insert]
  by_cases h : other = key <;> simp [h]

/-- The second of two values that are put under one key takes the place of the first. -/
theorem insert_insert (key : String) (older value : α) (es : Entries α) :
    insert key value (insert key older es) = insert key value es := by
  have hself : ∀ rest : Entries α,
      insert key value ((key, older) :: rest) = (key, value) :: rest := fun rest => by
    rw [insert, if_neg (String.lt_irrefl key), if_pos rfl]
  induction es with
  | nil => exact hself []
  | cons e rest ih =>
      obtain ⟨k, v⟩ := e
      by_cases hlt : key < k
      · rw [insert, insert, if_pos hlt, if_pos hlt, hself]
      · by_cases hk : k = key
        · rw [insert, insert, if_neg hlt, if_neg hlt, if_pos hk, if_pos hk, hself]
        · have hkeep : ∀ (w : α) (es : Entries α),
              insert key w ((k, v) :: es) = (k, v) :: insert key w es := fun w es => by
            rw [insert, if_neg hlt, if_neg hk]
          rw [hkeep, hkeep, hkeep, ih]

/-- No key is lost when newer entries are put in. -/
theorem contains_union {es : Entries α} (h : contains key es = true) (newer : Entries α) :
    contains key (union es newer) = true := by
  induction newer generalizing es with
  | nil => exact h
  | cons e rest ih =>
      refine ih ?_
      rw [contains_insert, h, Bool.or_true]

/-- What is found after newer entries were put in was there or is one of them. -/
theorem find?_union_some {es newer : Entries α} (h : find? key (union es newer) = some value) :
    find? key es = some value ∨ (key, value) ∈ newer := by
  induction newer generalizing es with
  | nil => exact Or.inl h
  | cons e newer ih =>
      rcases ih h with hfound | hmem
      · rw [find?_insert] at hfound
        split at hfound
        · rename_i hkey
          refine Or.inr (List.mem_cons.mpr (Or.inl ?_))
          rw [hkey, ← Option.some.inj hfound]
        · exact Or.inl hfound
      · exact Or.inr (List.mem_cons_of_mem _ hmem)

theorem find?_union_of_notMem {es newer : Entries α} (h : key ∉ keys newer) :
    find? key (union es newer) = find? key es := by
  induction newer generalizing es with
  | nil => rfl
  | cons e rest ih =>
      obtain ⟨hhead, hrest⟩ := not_or.mp fun hmem => h (List.mem_cons.mpr hmem)
      exact (ih hrest).trans (find?_insert_ne es hhead)

/-- Where no key of the newer entries repeats, each of them is found before the older ones. -/
theorem find?_union {es newer : Entries α} (h : (keys newer).Nodup) :
    find? key (union es newer) = (find? key newer).or (find? key es) := by
  induction newer generalizing es with
  | nil => rfl
  | cons e rest ih =>
      obtain ⟨k, v⟩ := e
      obtain ⟨hhead, hrest⟩ := List.nodup_cons.mp h
      have hstep : union es ((k, v) :: rest) = union (insert k v es) rest := rfl
      rw [hstep, ih hrest, find?_insert, find?_cons]
      by_cases hk : k = key
      · subst hk
        rw [find?_of_notMem_keys hhead, if_pos rfl, if_pos rfl]
        rfl
      · rw [if_neg hk, if_neg (Ne.symm hk)]

theorem find?_insertNew (es : Entries α) :
    find? other (insertNew key value es)
      = if other = key then some ((find? key es).getD value) else find? other es := by
  rw [insertNew]
  cases hk : find? key es with
  | some v =>
      rw [if_pos (contains_of_find? hk)]
      by_cases h : other = key
      · simp [h, hk]
      · rw [if_neg h]
  | none =>
      rw [if_neg (by simp [not_contains_iff.mpr hk]), find?_insert, Option.getD_none]

/-! ### Keys that do not repeat -/

/-- An entry under a new key joins the others. -/
theorem insert_perm {es : Entries α} (h : contains key es = false) :
    (insert key value es).Perm ((key, value) :: es) := by
  induction es with
  | nil => exact List.Perm.refl _
  | cons e rest ih =>
      obtain ⟨k, v⟩ := e
      have hk : ¬ k = key := by
        intro hc
        rw [contains, find?_cons, if_pos hc] at h
        simp at h
      rw [contains, find?_cons, if_neg hk] at h
      rw [insert]
      split
      · exact List.Perm.refl _
      · exact (List.Perm.cons (k, v) (ih h)).trans (List.Perm.swap (key, value) (k, v) rest)

theorem keys_insert_perm {es : Entries α} (h : contains key es = false) :
    (keys (insert key value es)).Perm (key :: keys es) := (insert_perm h).map Prod.fst

theorem nodup_keys_insertNew {es : Entries α} (h : (keys es).Nodup) :
    (keys (insertNew key value es)).Nodup := by
  rw [insertNew]
  by_cases hc : contains key es = true
  · rw [if_pos hc]
    exact h
  · rw [if_neg hc]
    refine (keys_insert_perm (by simpa using hc)).nodup_iff.mpr (List.nodup_cons.mpr ⟨?_, h⟩)
    exact fun hmem => hc (contains_iff_mem_keys.mpr hmem)

theorem mem_of_find? {es : Entries α} (h : find? key es = some value) : (key, value) ∈ es := by
  induction es with
  | nil => simp at h
  | cons e rest ih =>
      obtain ⟨k, v⟩ := e
      rw [find?_cons] at h
      split at h
      · rename_i hk
        subst hk
        exact Option.some.inj h ▸ List.mem_cons_self ..
      · exact List.mem_cons_of_mem _ (ih h)

theorem mem_values_of_find? {es : Entries α} (h : find? key es = some value) :
    value ∈ values es := List.mem_map_of_mem (mem_of_find? h)

/-- Where no key repeats, a value is found under its key. -/
theorem exists_find?_of_mem_values {es : Entries α} (h : (keys es).Nodup) (hv : value ∈ values es) :
    ∃ k, find? k es = some value := by
  induction es with
  | nil => simp [values] at hv
  | cons e rest ih =>
      obtain ⟨k, v⟩ := e
      obtain ⟨hfresh, hrest⟩ := List.nodup_cons.mp h
      rcases List.mem_cons.mp hv with rfl | hmem
      · exact ⟨k, by simp⟩
      · obtain ⟨k', hk'⟩ := ih hrest hmem
        have hne : ¬ k = k' := by
          rintro rfl
          exact hfresh (contains_iff_mem_keys.mp (contains_of_find? hk'))
        exact ⟨k', by rw [find?_cons, if_neg hne, hk']⟩

/-- Where no key repeats, what stands under a key is found. -/
theorem find?_of_mem {es : Entries α} (h : (keys es).Nodup) (hmem : (key, value) ∈ es) :
    find? key es = some value := by
  induction es with
  | nil => simp at hmem
  | cons e rest ih =>
      obtain ⟨hfresh, hrest⟩ := List.nodup_cons.mp h
      rw [find?_cons]
      rcases List.mem_cons.mp hmem with rfl | hmem
      · rw [if_pos rfl]
      · have hne : ¬ e.1 = key := fun heq => hfresh (heq ▸ List.mem_map_of_mem hmem)
        rw [if_neg hne, ih hrest hmem]

/-! ### Keys in ascending order -/

/-- The keys are in ascending order. -/
def Sorted (es : Entries α) : Prop := (keys es).Pairwise (· < ·)

@[simp] theorem keys_mapValues {β : Type} (f : α → β) (es : Entries α) :
    keys (mapValues f es) = keys es := by
  simp [keys, mapValues]

theorem find?_mapValues {β : Type} (f : α → β) (es : Entries α) :
    find? key (mapValues f es) = (find? key es).map f := by
  induction es with
  | nil => rfl
  | cons e rest ih =>
      rw [mapValues, List.map_cons, find?_cons, find?_cons]
      split
      · rfl
      · exact ih

theorem sorted_mapValues {β : Type} {f : α → β} {es : Entries α} :
    Sorted (mapValues f es) ↔ Sorted es := by
  rw [Sorted, keys_mapValues, Sorted]

theorem mem_keys_insert {es : Entries α} :
    other ∈ keys (insert key value es) ↔ other = key ∨ other ∈ keys es := by
  rw [← contains_iff_mem_keys, ← contains_iff_mem_keys, contains_insert, Bool.or_eq_true,
    decide_eq_true_eq]

theorem mem_keys_union {es newer : Entries α} :
    other ∈ keys (union es newer) ↔ other ∈ keys newer ∨ other ∈ keys es := by
  induction newer generalizing es with
  | nil => simp [union, keys]
  | cons e rest ih =>
      refine (@ih (insert e.1 e.2 es)).trans ?_
      rw [mem_keys_insert, ← or_assoc, or_comm (b := other = e.1)]
      exact or_congr_left List.mem_cons.symm

namespace Sorted

variable {es es' : Entries α}

theorem nil : Sorted ([] : Entries α) := List.Pairwise.nil

theorem insert (h : Sorted es) : Sorted (Entries.insert key value es) := by
  induction es with
  | nil => exact List.pairwise_singleton _ _
  | cons e rest ih =>
      obtain ⟨k, v⟩ := e
      obtain ⟨hhead, hrest⟩ := List.pairwise_cons.mp h
      rw [Entries.insert]
      by_cases hlt : key < k
      · rw [if_pos hlt]
        refine List.pairwise_cons.mpr ⟨fun k' hmem => ?_, h⟩
        rcases List.mem_cons.mp hmem with rfl | hmem
        · exact hlt
        · exact String.lt_trans hlt (hhead k' hmem)
      · rw [if_neg hlt]
        by_cases hk : k = key
        · subst hk
          rw [if_pos rfl]
          exact h
        · rw [if_neg hk]
          have hgt : k < key := by
            by_contra hnot
            exact hk (String.le_antisymm (String.not_lt.mp hlt) (String.not_lt.mp hnot))
          refine List.pairwise_cons.mpr ⟨fun k' hmem => ?_, ih hrest⟩
          rcases mem_keys_insert.mp hmem with rfl | hmem
          · exact hgt
          · exact hhead k' hmem

theorem insertNew (h : Sorted es) : Sorted (Entries.insertNew key value es) := by
  rw [Entries.insertNew]
  split
  · exact h
  · exact h.insert

theorem union (h : Sorted es) (newer : Entries α) : Sorted (Entries.union es newer) := by
  induction newer generalizing es with
  | nil => exact h
  | cons e rest ih => exact ih h.insert

/-- No key repeats. -/
theorem nodup_keys (h : Sorted es) : (keys es).Nodup := by
  refine List.Pairwise.imp (fun {a b} hlt heq => ?_) h
  exact String.lt_irrefl b (heq ▸ hlt)

/-- What is found under a key is what stands under it. -/
theorem find?_iff_mem (h : Sorted es) : find? key es = some value ↔ (key, value) ∈ es :=
  ⟨mem_of_find?, find?_of_mem h.nodup_keys⟩

/-- **A table is what is found in it.** -/
theorem ext (h : Sorted es) (h' : Sorted es') (hfind : ∀ key, find? key es = find? key es') :
    es = es' := by
  have hperm : es.Perm es' := by
    refine (List.perm_ext_iff_of_nodup (List.Nodup.of_map _ h.nodup_keys)
      (List.Nodup.of_map _ h'.nodup_keys)).mpr fun e => ?_
    obtain ⟨k, v⟩ := e
    rw [← h.find?_iff_mem, ← h'.find?_iff_mem, hfind]
  refine hperm.eq_of_pairwise (fun a b _ _ hlt hgt => ?_) (List.pairwise_map.mp h)
    (List.pairwise_map.mp h')
  exact absurd hgt (String.lt_asymm hlt)

end Sorted

/-! ### Tables from lists -/

section OfList

variable {es : Entries α}

theorem mem_insert {e : String × α} (h : e ∈ insert key value es) : e = (key, value) ∨ e ∈ es := by
  induction es with
  | nil => exact Or.inl (List.mem_singleton.mp h)
  | cons e' rest ih =>
      obtain ⟨k, v⟩ := e'
      rw [insert] at h
      split at h
      · exact List.mem_cons.mp h
      · split at h
        · exact (List.mem_cons.mp h).imp_right (List.mem_cons_of_mem _)
        · rcases List.mem_cons.mp h with h | h
          · exact Or.inr (List.mem_cons.mpr (Or.inl h))
          · exact (ih h).imp_right (List.mem_cons_of_mem _)

theorem mem_ofList {e : String × α} (h : e ∈ ofList es) : e ∈ es := by
  have hfold : ∀ (es acc : Entries α), e ∈ es.foldl (fun t e => insert e.1 e.2 t) acc →
      e ∈ es ∨ e ∈ acc := by
    intro es
    induction es with
    | nil => exact fun _ h => Or.inr h
    | cons e' rest ih =>
        intro acc h
        rcases ih _ h with h | h
        · exact Or.inl (List.mem_cons_of_mem _ h)
        · exact (mem_insert h).imp_left fun h => List.mem_cons.mpr (Or.inl h)
  exact (hfold es [] h).resolve_right (by simp)

theorem sorted_ofList (es : List (String × α)) : Sorted (ofList es) := Sorted.nil.union es

/-- Where no key repeats, the table holds what stands in the list. -/
theorem find?_ofList (h : (keys es).Nodup) : find? key (ofList es) = find? key es :=
  (find?_union h).trans (Option.or_none)

/-- A table is the table of its entries. -/
theorem ofList_eq (h : Sorted es) : ofList es = es :=
  (sorted_ofList es).ext h fun _ => find?_ofList h.nodup_keys

end OfList

end FlowGraph.Entries
