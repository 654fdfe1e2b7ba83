import AccessRules.Dict

/-!
# The entries of a dictionary

A dictionary is kept in key order by every insertion (`Ordered.insert`), so it is one list for one set
of entries:

> `Ordered.mem_iff`: a key leads to the one entry that it has.
> `insert_perm`: a new key adds its entry to the others.
> `Ordered.eq_of_perm`: dictionaries with the same entries are the same, however they were built.
-/

namespace AccessRules.Dict

variable {α : Type} {key : String} {value : α} {d d' : Dict α}

/-- An inserted dictionary holds the new entry and old ones, nothing else. -/
theorem mem_insert {e : String × α} (h : e ∈ d.insert key value) :
    e = (key, value) ∨ e ∈ d := by
  induction d with
  | nil => exact .inl (List.mem_singleton.mp h)
  | cons e' rest ih =>
    obtain ⟨k, v⟩ := e'
    rw [insert] at h
    split at h
    · exact List.mem_cons.mp h
    · split at h
      · exact (List.mem_cons.mp h).imp_right (List.mem_cons_of_mem _)
      · rcases List.mem_cons.mp h with rfl | h
        · exact .inr List.mem_cons_self
        · exact (ih h).imp_right (List.mem_cons_of_mem _)

/-- An insertion keeps the keys in order. -/
theorem Ordered.insert (h : d.Ordered) (key : String) (value : α) :
    (d.insert key value).Ordered := by
  induction d with
  | nil => exact List.pairwise_singleton _ _
  | cons e rest ih =>
    obtain ⟨k, v⟩ := e
    obtain ⟨hfirst, hrest⟩ := List.pairwise_cons.mp h
    rw [Dict.insert]
    split
    next hlt =>
      refine List.pairwise_cons.mpr ⟨?_, h⟩
      intro e he
      rcases List.mem_cons.mp he with rfl | he
      · exact hlt
      · exact String.lt_trans hlt (hfirst e he)
    next hnot =>
      split
      next heq =>
        subst heq
        exact List.pairwise_cons.mpr ⟨hfirst, hrest⟩
      next hne =>
        -- The new key stands behind the first one, wherever in the rest it comes to stand.
        have hlt : k < key := Std.lt_of_le_of_ne (String.not_lt.mp hnot) (Ne.symm hne)
        refine List.pairwise_cons.mpr ⟨?_, ih hrest⟩
        intro e he
        rcases mem_insert he with rfl | he
        · exact hlt
        · exact hfirst e he

/-- Insertions one by one keep the keys in order. -/
theorem Ordered.foldl_insert (h : d.Ordered) (entries : List (String × α)) :
    Ordered (entries.foldl (fun d e => d.insert e.1 e.2) d) := by
  induction entries generalizing d with
  | nil => exact h
  | cons e entries ih => exact ih (h.insert e.1 e.2)

/-- However the entries come, the dictionary built from them is ordered. -/
theorem ordered_ofList (entries : List (String × α)) : (ofList entries).Ordered := by
  have hempty : Ordered ([] : Dict α) := .nil
  exact hempty.foldl_insert entries

/-- In an ordered dictionary a key leads to the one entry that it has. -/
theorem Ordered.mem_iff (h : d.Ordered) : (key, value) ∈ d ↔ Dict.find? d key = some value := by
  induction d with
  | nil => simp [find?]
  | cons e rest ih =>
    obtain ⟨k, v⟩ := e
    obtain ⟨hfirst, hrest⟩ := List.pairwise_cons.mp h
    rw [find?, List.mem_cons, ih hrest]
    by_cases hkey : key = k
    · subst hkey
      -- Behind its entry the key does not come up again.
      have hnone : Dict.find? rest key ≠ some value := by
        intro hfind
        exact String.lt_irrefl key (hfirst _ ((ih hrest).mpr hfind))
      simp [hnone, eq_comm]
    · simp [hkey]

/-! ## Keys -/

/-- Only a key that is not there finds nothing. -/
theorem find?_eq_none_iff : d.find? key = none ↔ key ∉ d.keys := by
  induction d with
  | nil => simp [find?, keys]
  | cons e rest ih =>
    obtain ⟨k, v⟩ := e
    rw [find?]
    by_cases hkey : key = k
    · simp [hkey, keys]
    · rw [if_neg hkey, ih]
      simp [keys, hkey]

theorem contains_iff : d.contains key = true ↔ key ∈ d.keys := by
  rw [contains, ← Decidable.not_iff_not, ← find?_eq_none_iff, Option.not_isSome_iff_eq_none]

/-- In an ordered dictionary no key comes up twice. -/
theorem Ordered.nodup_keys (h : d.Ordered) : d.keys.Nodup := by
  rw [keys, List.Nodup, List.pairwise_map]
  exact h.imp String.ne_of_lt

/-! ## The same entries -/

/-- Under a new key an insertion adds its entry to the others. -/
theorem insert_perm (h : key ∉ d.keys) : (d.insert key value).Perm ((key, value) :: d) := by
  induction d with
  | nil => exact .refl _
  | cons e rest ih =>
    obtain ⟨k, v⟩ := e
    simp only [keys, List.map_cons, List.mem_cons, not_or] at h
    rw [insert]
    split
    · exact .refl _
    · rw [if_neg h.1]
      exact ((ih h.2).cons (k, v)).trans (.swap _ _ _)

/-- Entries with new keys that differ from each other are added to the others. -/
theorem foldl_insert_perm {entries : List (String × α)}
    (h : (d.keys ++ entries.map Prod.fst).Nodup) :
    (entries.foldl (fun d e => d.insert e.1 e.2) d).Perm (entries ++ d) := by
  induction entries generalizing d with
  | nil => exact .refl _
  | cons e entries ih =>
    have hkey : e.1 ∉ d.keys := fun hmem =>
      (List.nodup_append.mp h).2.2 _ hmem _ List.mem_cons_self rfl
    have hinsert : (d.insert e.1 e.2).Perm (e :: d) := insert_perm hkey
    have hkeys : (keys (d.insert e.1 e.2) ++ entries.map Prod.fst).Nodup := by
      refine (List.Perm.nodup_iff ?_).mp h
      exact List.perm_middle.trans ((hinsert.map Prod.fst).symm.append_right _)
    exact (ih hkeys).trans ((hinsert.append_left entries).trans List.perm_middle)

/-- With distinct keys no entry replaces another, so all of them are kept. -/
theorem ofList_perm {entries : List (String × α)} (h : (entries.map Prod.fst).Nodup) :
    (ofList entries).Perm entries := by
  have hperm := foldl_insert_perm (d := empty) h
  rwa [empty, List.append_nil] at hperm

/-- Ordered dictionaries with the same entries are the same. -/
theorem Ordered.eq_of_perm (h : d.Ordered) (h' : d'.Ordered) (hperm : d.Perm d') : d = d' := by
  refine List.Perm.eq_of_pairwise ?_ h h' hperm
  intro a b _ _ hab hba
  exact absurd (String.lt_trans hab hba) (String.lt_irrefl a.1)

/-- An ordered dictionary is the one of its own entries. -/
theorem Ordered.ofList_eq (h : d.Ordered) : ofList d = d :=
  (ordered_ofList d).eq_of_perm h (ofList_perm h.nodup_keys)

end AccessRules.Dict
