import AccessRules.Proofs.Dict
import AccessRules.Schema.CollectionSet

/-!
# Loading collections

Collections are loaded one by one, and only then are their relations looked at. A set of collections
is its entries in name order, so that what has been loaded does not show in which order it came:

> `insertAll_cases`: collections with different names are all in the set, and nothing else is; with a
> name taken loading stops.
> `ofCollections_in_any_order`: loading succeeds exactly if the names differ and every relation refers
> to a collection among them; then the set leads from every name to its collection; and in another order
> the collections make the same set, or fail for the same reason.
-/

namespace AccessRules.Schema

/-! ## What a field refers to -/

/-- A field of the type refers to the records of a collection, be it one or a list of them. -/
inductive FieldType.RefersTo : FieldType → String → Prop
  | relation {target : String} : RefersTo (.relation target) target
  | list {items : FieldType} {target : String} : RefersTo items target → RefersTo (.list items) target

/-- The target that is looked for is the one the type refers to, through any number of lists. -/
theorem FieldType.relationTarget?_eq_some_iff {t : FieldType} {target : String} :
    t.relationTarget? = some target ↔ t.RefersTo target := by
  induction t with
  | list items ih =>
    rw [relationTarget?, ih]
    constructor
    · exact .list
    · intro h
      cases h with
      | list h => exact h
  | relation collection =>
    rw [relationTarget?, Option.some.injEq]
    constructor
    · rintro rfl
      exact .relation
    · intro h
      cases h with
      | relation => rfl
  | string => constructor <;> intro h <;> cases h
  | int => constructor <;> intro h <;> cases h
  | float => constructor <;> intro h <;> cases h
  | boolean => constructor <;> intro h <;> cases h
  | json => constructor <;> intro h <;> cases h
  | timestamp => constructor <;> intro h <;> cases h

namespace CollectionSet

variable {s : CollectionSet} {cs cs' : List Collection}

/-! ## Adding collections -/

/-- A collection can be added exactly if its name is not taken. -/
theorem insert_of_notMem {c : Collection} (h : c.name ∉ s.names) :
    s.insert c = .ok ⟨s.collections.insert c.name c⟩ := by
  have hnot : ¬ s.collections.contains c.name = true := fun hc => h (Dict.contains_iff.mp hc)
  rw [insert, if_neg hnot]

/-- A collection of a name that is taken is refused, and the error names it. -/
theorem insert_of_mem {c : Collection} (h : c.name ∈ s.names) :
    s.insert c = .error (.duplicateCollection c.name) := by
  rw [insert, if_pos (Dict.contains_iff.mpr h)]

/-- Collections as entries. -/
def entries (cs : List Collection) : List (String × Collection) :=
  cs.map fun c => (c.name, c)

/-- With names that are new and differ from each other all collections are added, and otherwise one of
them finds its name taken. -/
theorem insertAll_cases (h : s.collections.Ordered) (cs : List Collection) :
    ((s.names ++ cs.map Collection.name).Nodup ∧ s.insertAll cs =
        .ok ⟨(entries cs).foldl (fun d e => d.insert e.1 e.2) s.collections⟩) ∨
      (¬ (s.names ++ cs.map Collection.name).Nodup ∧
        ∃ c ∈ cs, s.insertAll cs = .error (.duplicateCollection c.name)) := by
  induction cs generalizing s with
  | nil =>
    refine .inl ⟨?_, rfl⟩
    rw [List.map_nil, List.append_nil]
    exact h.nodup_keys
  | cons c cs ih =>
    by_cases hname : c.name ∈ s.names
    · refine .inr ⟨?_, c, List.mem_cons_self, ?_⟩
      · intro hnodup
        exact (List.nodup_append.mp hnodup).2.2 _ hname _ List.mem_cons_self rfl
      · rw [insertAll, insert_of_mem hname]
    · -- The names in the way are the same before and after the first collection is added.
      have hnames : (s.names ++ (c :: cs).map Collection.name).Perm
          (Dict.keys (s.collections.insert c.name c) ++ cs.map Collection.name) :=
        List.perm_middle.trans
          (((Dict.insert_perm hname).map Prod.fst).symm.append_right (cs.map Collection.name))
      have hrest : s.insertAll (c :: cs) =
          insertAll ⟨s.collections.insert c.name c⟩ cs := by
        rw [insertAll, insert_of_notMem hname]
      rw [hrest, hnames.nodup_iff]
      rcases ih (s := ⟨s.collections.insert c.name c⟩) (h.insert c.name c) with
        ⟨hnodup, ht⟩ | ⟨hnodup, d, hd, hfail⟩
      · exact .inl ⟨hnodup, ht⟩
      · exact .inr ⟨hnodup, d, List.mem_cons_of_mem c hd, hfail⟩

/-! ## Relations -/

/-- No relation of a collection leads out of a set exactly if every collection that a field refers to is
in the set. -/
theorem brokenRelationsOf_eq_nil_iff {c : Collection} :
    s.brokenRelationsOf c = [] ↔
      ∀ f ∈ c.fields, ∀ target, f.type.RefersTo target → target ∈ s.names := by
  rw [brokenRelationsOf, List.filterMap_eq_nil_iff]
  refine forall₂_congr fun f _ => ?_
  simp only [← FieldType.relationTarget?_eq_some_iff]
  cases f.type.relationTarget? with
  | none => simp
  | some target => simp [Dict.contains_iff, names]

/-- No relation is broken if the target of every one is the name of a collection. -/
theorem brokenRelations_eq_nil_iff :
    s.brokenRelations = [] ↔ ∀ c ∈ s.collections.values, ∀ f ∈ c.fields, ∀ target,
      f.type.RefersTo target → target ∈ s.names := by
  rw [brokenRelations, List.flatMap_eq_nil_iff]
  simp only [brokenRelationsOf_eq_nil_iff]

/-! ## The set of some collections -/

/-- Two attempts to load come to the same: the same set, a name that is taken, or the same relation that
leads nowhere. -/
inductive SameOutcome : Except Error CollectionSet → Except Error CollectionSet → Prop
  | set (s : CollectionSet) : SameOutcome (.ok s) (.ok s)
  | taken (name name' : String) :
      SameOutcome (.error (.duplicateCollection name)) (.error (.duplicateCollection name'))
  | relation (collection field target : String) :
      SameOutcome (.error (.unknownCollection collection field target))
        (.error (.unknownCollection collection field target))

/-- A set, unless a relation leads out of it. -/
def checked (s : CollectionSet) : Except Error CollectionSet :=
  match s.brokenRelations with
  | [] => .ok s
  | r :: _ => .error (.unknownCollection r.collection r.field r.target)

/-- The check changes nothing; it passes if no relation is broken. -/
theorem checked_eq_ok_iff {t : CollectionSet} :
    s.checked = .ok t ↔ s.brokenRelations = [] ∧ t = s := by
  unfold checked
  cases s.brokenRelations with
  | nil => simp [eq_comm]
  | cons r rs => simp

theorem sameOutcome_checked (s : CollectionSet) : SameOutcome s.checked s.checked := by
  unfold checked
  cases s.brokenRelations with
  | nil => exact .set s
  | cons r rs => exact .relation r.collection r.field r.target

theorem map_fst_entries (cs : List Collection) : (entries cs).map Prod.fst = cs.map Collection.name := by
  rw [entries, List.map_map]
  rfl

/-- Where the names differ the set of all the collections is checked, and otherwise a name is taken. -/
theorem ofCollections_cases (cs : List Collection) :
    ((cs.map Collection.name).Nodup ∧ ∃ s : CollectionSet, s.collections.Ordered ∧
        s.collections.Perm (entries cs) ∧ ofCollections cs = s.checked) ∨
      (¬ (cs.map Collection.name).Nodup ∧
        ∃ name, ofCollections cs = .error (.duplicateCollection name)) := by
  have hempty : empty.collections.Ordered := .nil
  rcases insertAll_cases hempty cs with ⟨hnodup, hs⟩ | ⟨hnodup, c, -, hfail⟩
  · refine .inl ⟨hnodup, ⟨Dict.ofList (entries cs)⟩, Dict.ordered_ofList _, ?_, ?_⟩
    · apply Dict.ofList_perm
      rw [map_fst_entries]
      exact hnodup
    · rw [ofCollections, hs]
      rfl
  · refine .inr ⟨hnodup, c.name, ?_⟩
    rw [ofCollections, hfail]

section

variable (hperm : s.collections.Perm (entries cs))

include hperm

/-- The names of a set are those of its collections. -/
theorem names_perm : s.names.Perm (cs.map Collection.name) := by
  rw [← map_fst_entries]
  exact hperm.map Prod.fst

/-- The set has the collections that were loaded, in some order. -/
theorem values_perm : s.collections.values.Perm cs := by
  have hvalues : cs = (entries cs).map Prod.snd := by
    rw [entries, List.map_map]
    exact (List.map_id cs).symm
  exact (hperm.map Prod.snd).trans (.of_eq hvalues.symm)

/-- A name leads to the collection of that name. -/
theorem get?_eq_some_iff (hordered : s.collections.Ordered) {name : String} {c : Collection} :
    s.get? name = some c ↔ c ∈ cs ∧ c.name = name := by
  rw [get?, ← hordered.mem_iff, hperm.mem_iff, entries, List.mem_map]
  constructor
  · rintro ⟨d, hd, heq⟩
    cases heq
    exact ⟨hd, rfl⟩
  · rintro ⟨hc, rfl⟩
    exact ⟨c, hc, rfl⟩

/-- The set of the collections passes the check exactly if their relations refer to each other. -/
theorem brokenRelations_eq_nil_iff_of_perm :
    s.brokenRelations = [] ↔ ∀ c ∈ cs, ∀ f ∈ c.fields, ∀ target, f.type.RefersTo target →
      target ∈ cs.map Collection.name := by
  simp only [brokenRelations_eq_nil_iff, (values_perm hperm).mem_iff, (names_perm hperm).mem_iff]

end

/-- **Loading keeps the collections that are given and their relations, in whatever order they come.**
It succeeds exactly if the names of the collections differ and each of their relations, also one in
lists, refers to one of them. Then a name leads to the collection of that name and no relation leads
out of the set. The same collections in another order come to the same. -/
theorem ofCollections_in_any_order (cs : List Collection) :
    ((∃ s, ofCollections cs = .ok s) ↔
      (cs.map Collection.name).Nodup ∧
        ∀ c ∈ cs, ∀ f ∈ c.fields, ∀ target, f.type.RefersTo target →
          target ∈ cs.map Collection.name) ∧
    (∀ s, ofCollections cs = .ok s →
      (∀ name c, s.get? name = some c ↔ c ∈ cs ∧ c.name = name) ∧
        s.names.Perm (cs.map Collection.name) ∧ s.brokenRelations = []) ∧
    ∀ cs' : List Collection, cs.Perm cs' → SameOutcome (ofCollections cs) (ofCollections cs') := by
  rcases ofCollections_cases cs with ⟨hnodup, s, hordered, hperm, hs⟩ | ⟨hnodup, name, hfail⟩
  · refine ⟨?_, ?_, ?_⟩
    · simp [hs, checked_eq_ok_iff, hnodup, brokenRelations_eq_nil_iff_of_perm hperm]
    · intro t ht
      rw [hs, checked_eq_ok_iff] at ht
      obtain ⟨hwhole, rfl⟩ := ht
      exact ⟨fun name c => get?_eq_some_iff hperm hordered, names_perm hperm, hwhole⟩
    · intro cs' hcs
      rcases ofCollections_cases cs' with ⟨-, s', hordered', hperm', hs'⟩ | ⟨hnodup', -⟩
      · have hentries : (entries cs).Perm (entries cs') := hcs.map _
        -- Both sets are kept in the order of the names, and they have the same entries.
        have hcollections : s.collections = s'.collections :=
          hordered.eq_of_perm hordered' (hperm.trans (hentries.trans hperm'.symm))
        have hsame : s = s' := by
          cases s
          cases s'
          exact congrArg _ hcollections
        rw [hs, hs', ← hsame]
        exact sameOutcome_checked s
      · exact absurd ((hcs.map _).nodup_iff.mp hnodup) hnodup'
  · refine ⟨by simp [hfail, hnodup], by simp [hfail], ?_⟩
    intro cs' hcs
    rcases ofCollections_cases cs' with ⟨hnodup', -⟩ | ⟨-, name', hfail'⟩
    · exact absurd ((hcs.map _).nodup_iff.mpr hnodup') hnodup
    · rw [hfail, hfail']
      exact .taken name name'

end CollectionSet

end AccessRules.Schema
