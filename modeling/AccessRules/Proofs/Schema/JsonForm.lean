import Mathlib.Data.List.Permutation
import AccessRules.Proofs.Json.Reordering
import AccessRules.Proofs.Json.Text
import AccessRules.Schema.Collection

/-!
# Collections and their JSON form

What a collection is written as is read back as the same collection. The members of an object may
have been put in another order in between, and those of a type stand among the members of its field,
so every part is first read back from its members in any order:

> `FieldType.ofJson?_of_members`: a type, however deep its lists are nested.
> `Field.ofJson?_of_reorders`: a field; the members that are not its own are those of its type.
> `RuleSet.ofDocument?_of_reorders`: a rule set, in which no rule and an empty rule stay apart.
> `Collection.ofJson?_of_reorders`: the whole.

Only a text sets a limit, because nothing in it may nest deeper than `Json.maxNesting`:

> `Collection.reads_back`: the JSON form comes back as the collection, and its text too if no field
> nests too deep.
-/

namespace AccessRules

open Json (MembersReorder ItemsReorder)

namespace Schema

/-! ## Members by their keys -/

/-- The member of a key is found in any order of the members. -/
theorem filter_key_of_perm {members placed : List (String × Json)} (h : members.Perm placed)
    {key : String} {item : Json}
    (hkey : members.filter (fun m => m.1 = key) = [(key, item)]) :
    placed.filter (fun m => m.1 = key) = [(key, item)] :=
  List.perm_singleton.mp (hkey ▸ (h.filter _).symm)

/-- A member that comes up once is read as such from any order of the members. -/
theorem FieldType.onlyMember?_of_perm {members placed : List (String × Json)}
    (h : members.Perm placed) {key : String} {item : Json}
    (hkey : members.filter (fun m => m.1 = key) = [(key, item)]) :
    onlyMember? key placed = some item := by
  rw [onlyMember?, filter_key_of_perm h hkey]

theorem Field.flag?_of_perm {members placed : List (String × Json)} (h : members.Perm placed)
    {key : String} {b : Bool}
    (hkey : members.filter (fun m => m.1 = key) = [(key, .bool b)]) :
    flag? key placed = some b := by
  rw [flag?, filter_key_of_perm h hkey]

/-! ## Types -/

namespace FieldType

/-- A type without parts of its own is told by its tag alone. -/
theorem ofJson?_simple {t : FieldType} (hmembers : t.members = [("type", .string t.name)])
    (htag : Dict.find? tags t.name = some (.simple t)) {members placed : List (String × Json)}
    (h : MembersReorder t.members members) (hperm : members.Perm placed) (numbers : Bool) :
    ofJson? numbers (.object placed) = some t := by
  simp only [hmembers, MembersReorder, Json.Reorders] at h
  obtain ⟨_, _, rfl, rfl, rfl⟩ := h
  have htype : onlyMember? "type" placed = some (.string t.name) :=
    onlyMember?_of_perm hperm (by simp)
  rw [ofJson?, htype, Option.bind_some, readTag?, htag]

/-- A list type is read from the type of its items. -/
theorem ofJson?_list {numbers : Bool} {members : List (String × Json)} {items : Json}
    (htype : onlyMember? "type" members = some (.string "list"))
    (hitems : onlyMember? "items" members = some items) :
    ofJson? numbers (.object members) = (ofJson? true items).map .list := by
  have htag : (onlyMember? "type" members).bind (readTag? numbers) = some .list := by
    rw [htype]; rfl
  rw [ofJson?, htag]
  simp only
  split
  · next h => rw [hitems] at h; cases h
  · next h => rw [hitems] at h; cases h; rfl

theorem ofJson?_relation {numbers : Bool} {members : List (String × Json)} {collection : String}
    (htype : onlyMember? "type" members = some (.string "relation"))
    (hcollection : onlyMember? "collection" members = some (.string collection)) :
    ofJson? numbers (.object members) = some (.relation collection) := by
  have htag : (onlyMember? "type" members).bind (readTag? numbers) = some .relation := by
    rw [htype]; rfl
  rw [ofJson?, htag]
  simp only [hcollection]

/-- A type comes back from its members in any order. -/
theorem ofJson?_of_members {t : FieldType} {members placed : List (String × Json)}
    (h : MembersReorder t.members members) (hperm : members.Perm placed) (numbers : Bool) :
    ofJson? numbers (.object placed) = some t := by
  induction t generalizing members placed numbers with
  | list items ih =>
    simp only [FieldType.members, MembersReorder, Json.Reorders] at h
    obtain ⟨_, _, rfl, rfl, _, _, rfl, ⟨inner, placed', rfl, hinner, hperm'⟩, rfl⟩ := h
    have htype : onlyMember? "type" placed = some (.string "list") :=
      onlyMember?_of_perm hperm (by simp)
    have hitems : onlyMember? "items" placed = some (.object placed') :=
      onlyMember?_of_perm hperm (by simp)
    rw [ofJson?_list htype hitems, ih hinner hperm', Option.map_some]
  | relation collection =>
    simp only [FieldType.members, MembersReorder, Json.Reorders] at h
    obtain ⟨_, _, rfl, rfl, _, _, rfl, rfl, rfl⟩ := h
    have htype : onlyMember? "type" placed = some (.string "relation") :=
      onlyMember?_of_perm hperm (by simp)
    have hcollection : onlyMember? "collection" placed = some (.string collection) :=
      onlyMember?_of_perm hperm (by simp)
    exact ofJson?_relation htype hcollection
  | _ => exact ofJson?_simple rfl rfl h hperm numbers

/-- The keys that the members of a type may have; a field has none of them of its own. -/
theorem keys_members (t : FieldType) :
    ∀ key ∈ t.members.map Prod.fst, key ∈ ["type", "items", "collection"] := by
  cases t <;> simp [FieldType.members, FieldType.name]

end FieldType

/-! ## Fields -/

/-- A field comes back from its JSON form with the members in any order: those of its type are the
ones that are not its own. -/
theorem Field.ofJson?_of_reorders {f : Field} {j : Json} (h : f.toJson.Reorders j) :
    ofJson? j = some f := by
  simp only [toJson, List.cons_append, List.nil_append, Json.Reorders, MembersReorder,
    Json.membersReorder_append] at h
  obtain ⟨_, placed, rfl, ⟨_, _, rfl, rfl, type, _, rfl, htype, _, _, rfl, rfl, _, _, rfl, rfl, rfl⟩,
    hperm⟩ := h
  have hkeys : ∀ m ∈ type, m.1 ∈ ["type", "items", "collection"] := by
    intro m hm
    have hkey := List.mem_map_of_mem (f := Prod.fst) hm
    rw [htype.keys] at hkey
    exact f.type.keys_members _ hkey
  -- The members of the type are found under none of the keys of the field itself.
  have hother {key : String} (hkey : key ∉ ["type", "items", "collection"]) :
      type.filter (fun m => m.1 = key) = [] := by
    rw [List.filter_eq_nil_iff]
    intro m hm heq
    exact hkey (of_decide_eq_true heq ▸ hkeys m hm)
  have hname : FieldType.onlyMember? "name" placed = some (.string f.name) :=
    FieldType.onlyMember?_of_perm hperm (by simp [hother])
  have hrequired : flag? "required" placed = some f.required :=
    flag?_of_perm hperm (by simp [hother])
  have hsystem : flag? "system" placed = some f.system :=
    flag?_of_perm hperm (by simp [hother])
  -- Without those of the field itself only the members of the type are left.
  have hothers : type.Perm (placed.filter fun m =>
      !(["name", "required", "system"].contains m.1)) := by
    have hown : type.filter (fun m => !(["name", "required", "system"].contains m.1)) = type := by
      rw [List.filter_eq_self]
      intro m hm
      have hkey := hkeys m hm
      simp only [List.mem_cons, List.not_mem_nil, or_false] at hkey
      rcases hkey with hkey | hkey | hkey <;> rw [hkey] <;> rfl
    have hfilter := hperm.filter fun m => !(["name", "required", "system"].contains m.1)
    rwa [List.filter_cons_of_neg (by simp), List.filter_append, hown,
      List.filter_cons_of_neg (by simp), List.filter_cons_of_neg (by simp), List.filter_nil,
      List.append_nil] at hfilter
  have htype := FieldType.ofJson?_of_members htype hothers true
  rw [ofJson?, hname, hrequired, hsystem]
  simp only [htype]

end Schema

/-! ## Rules -/

namespace RuleSet

theorem operationOfKey?_name (o : Operation) : operationOfKey? o.name = some o := by
  cases o <;> rfl

/-- A rule that is missing is null in the JSON form and comes back as missing. -/
theorem textOfDocument?_ofText? (text : Option String) :
    textOfDocument? (Json.ofText? text).toDocument = some text := by
  cases text <;> rfl

/-- Setting the rule of an operation leaves the other operations theirs. -/
theorem rule_set (rules : RuleSet) (o o' : Operation) (text : Option String) :
    (rules.set o text).rule o' = if o' = o then text else rules.rule o' := by
  cases o <;> cases o' <;> rfl

/-- Rule sets with the same rule for every operation are the same. -/
theorem eq_of_rule {rules rules' : RuleSet} (h : ∀ o, rules.rule o = rules'.rule o) :
    rules = rules' := by
  cases rules
  cases rules'
  simp only [mk.injEq]
  exact ⟨h .list, h .view, h .create, h .update, h .delete⟩

/-- The member of a rule set for an operation. -/
def member (rules : RuleSet) (o : Operation) : String × Json :=
  (o.name, Json.ofText? (rules.rule o))

theorem toJson_eq (rules : RuleSet) : rules.toJson = .object (Operation.all.map rules.member) :=
  rfl

/-- Reading members one by one gives each of their operations its rule, and the others keep theirs. -/
theorem ofMembers?_member (rules : RuleSet) {operations : List Operation}
    (hnodup : operations.Nodup) (read : RuleSet) (seen : List Operation)
    (hseen : ∀ o ∈ seen, o ∉ operations) :
    ∃ all, ofMembers? read seen (Json.memberDocuments (operations.map rules.member)) = some all ∧
      ∀ o, all.rule o = if o ∈ operations then rules.rule o else read.rule o := by
  induction operations generalizing read seen with
  | nil => exact ⟨read, rfl, by simp⟩
  | cons first operations ih =>
    obtain ⟨hfirst, hrest⟩ := List.nodup_cons.mp hnodup
    -- Each operation comes once, so no member is refused as a repetition.
    have hnew : seen.contains first = false := by
      rw [List.contains_eq_mem, decide_eq_false_iff_not]
      exact fun h => hseen first h List.mem_cons_self
    have hseen' : ∀ o ∈ first :: seen, o ∉ operations := by
      intro o ho
      rcases List.mem_cons.mp ho with rfl | ho
      · exact hfirst
      · exact fun h => hseen o ho (List.mem_cons_of_mem _ h)
    obtain ⟨all, hall, hrule⟩ := ih hrest (read.set first (rules.rule first)) (first :: seen) hseen'
    refine ⟨all, ?_, ?_⟩
    · rw [List.map_cons, member, Json.memberDocuments, ofMembers?, operationOfKey?_name]
      simp only [hnew, textOfDocument?_ofText?]
      exact hall
    · intro o
      rw [hrule, rule_set]
      by_cases ho : o = first
      · simp [ho, hfirst]
      · simp [ho]

/-- A rule set comes back from its JSON form with the members in any order. -/
theorem ofDocument?_of_reorders {rules : RuleSet} {j : Json} (h : rules.toJson.Reorders j) :
    ofDocument? j.toDocument = some rules := by
  rw [toJson_eq, Json.Reorders] at h
  obtain ⟨members, placed, rfl, hmembers, hperm⟩ := h
  have hsame : members = Operation.all.map rules.member := by
    simp only [Operation.all, List.map_cons, List.map_nil, member, MembersReorder,
      Json.reorders_ofText?] at hmembers
    obtain ⟨_, _, rfl, rfl, _, _, rfl, rfl, _, _, rfl, rfl, _, _, rfl, rfl, _, _, rfl, rfl, rfl⟩ :=
      hmembers
    rfl
  -- The members in another order are those of the operations in another order.
  have hplaced := List.mem_permutations.mpr (hsame ▸ hperm).symm
  rw [← List.map_permutations] at hplaced
  obtain ⟨operations, hoperations, rfl⟩ := List.mem_map.mp hplaced
  rw [List.mem_permutations] at hoperations
  have hnodup : operations.Nodup := hoperations.nodup_iff.mpr (by decide)
  have hall (o : Operation) : o ∈ operations := hoperations.mem_iff.mpr (by cases o <;> decide)
  obtain ⟨all, hread, hrule⟩ := rules.ofMembers?_member hnodup empty [] (by simp)
  have heq : all = rules := eq_of_rule fun o => by rw [hrule, if_pos (hall o)]
  rw [Json.toDocument, ofDocument?, hread, heq]

end RuleSet

/-! ## Collections -/

namespace Schema

namespace Collection

/-- Fields come back from their JSON forms with the members in any order, if these nest no deeper
than they may. -/
theorem fieldsOfDocument?_of_reorders {fields : List Field} {items : List Json}
    (h : ItemsReorder (fields.map Field.toJson) items) (levels : Nat) :
    fieldsOfDocument? levels (Json.array items).toDocument =
      if Json.itemsDepth items ≤ levels then some fields else none := by
  rw [Json.toDocument, fieldsOfDocument?]
  induction fields generalizing items with
  | nil =>
    rw [List.map_nil, ItemsReorder] at h
    subst h
    simp [Json.itemDocuments, Json.itemsDepth]
  | cons f fields ih =>
    rw [List.map_cons, ItemsReorder] at h
    obtain ⟨item, rest, rfl, hitem, hrest⟩ := h
    simp only [Json.itemDocuments, List.mapM_cons, Json.toJson?_toDocument, ih hrest,
      Json.itemsDepth, Nat.max_le]
    by_cases hd : item.depth ≤ levels
    · by_cases hr : Json.itemsDepth rest ≤ levels <;>
        simp [hd, hr, Field.ofJson?_of_reorders hitem]
    · simp [hd]

/-- The three members may come in any order. -/
theorem ofMembers?_of_perm {name : String} {fields rules : Json} {placed : List (String × Json)}
    (hperm : [("name", .string name), ("fields", fields), ("rules", rules)].Perm placed)
    {all : RuleSet} (hrules : RuleSet.ofDocument? rules.toDocument = some all) (levels : Nat) :
    ofMembers? levels ⟨none, none, none⟩ (Json.memberDocuments placed) =
      (fieldsOfDocument? levels fields.toDocument).map fun fields =>
        ⟨some name, some fields, some all⟩ := by
  -- Three members have six orders, and each is gone through.
  have hplaced := List.mem_permutations'.mpr hperm.symm
  simp only [List.permutations', List.permutations'Aux, List.flatMap_cons, List.flatMap_nil,
    List.map_cons, List.map_nil, List.append_nil, List.cons_append, List.nil_append, List.mem_cons,
    List.not_mem_nil, or_false] at hplaced
  cases hfields : fieldsOfDocument? levels fields.toDocument <;>
    rcases hplaced with rfl | rfl | rfl | rfl | rfl | rfl <;>
      simp [Json.memberDocuments, Json.toDocument, ofMembers?, hfields, hrules]

/-- A collection comes back from the three members in any order, if its fields nest no deeper than
they may. -/
theorem ofDocument?_of_perm {c : Collection} {items : List Json} {rules : Json}
    {placed : List (String × Json)} (hitems : ItemsReorder (c.fields.map Field.toJson) items)
    (hrules : c.rules.toJson.Reorders rules)
    (hperm : [("name", .string c.name), ("fields", .array items), ("rules", rules)].Perm placed)
    (levels : Nat) :
    ofDocument? levels (Json.object placed).toDocument =
      if Json.itemsDepth items ≤ levels then some c else none := by
  rw [Json.toDocument, ofDocument?,
    ofMembers?_of_perm hperm (RuleSet.ofDocument?_of_reorders hrules) levels,
    fieldsOfDocument?_of_reorders hitems levels]
  by_cases hd : Json.itemsDepth items ≤ levels <;> simp [hd]

end Collection

/-! ## The JSON form -/

/-- No member of a type comes up twice. -/
theorem FieldType.keys_nodup (t : FieldType) : (t.members.map Prod.fst).Nodup := by
  cases t <;> simp [FieldType.members]

/-- Key order is one of the orders that the members of a type may come in. -/
theorem FieldType.reorders_inKeyOrder (t : FieldType) :
    ∀ m ∈ t.members, m.2.Reorders m.2.inKeyOrder := by
  induction t with
  | list items ih =>
    intro m hm
    simp only [FieldType.members, List.mem_cons, List.not_mem_nil, or_false] at hm
    rcases hm with rfl | rfl
    · simp [Json.Reorders, Json.inKeyOrder]
    · exact Json.reorders_object_inKeyOrder items.keys_nodup ih
  | _ => simp [FieldType.members, Json.Reorders, Json.inKeyOrder]

theorem Field.reorders_inKeyOrder (f : Field) : f.toJson.Reorders f.toJson.inKeyOrder := by
  refine Json.reorders_object_inKeyOrder (by cases f.type <;> simp [FieldType.members]) ?_
  intro m hm
  simp only [List.mem_append, List.mem_cons, List.not_mem_nil, or_false] at hm
  rcases hm with (rfl | hm) | rfl | rfl
  · simp [Json.Reorders, Json.inKeyOrder]
  · exact f.type.reorders_inKeyOrder m hm
  · simp [Json.Reorders, Json.inKeyOrder]
  · simp [Json.Reorders, Json.inKeyOrder]

namespace Collection

/-- Key order is one of the orders that the members of a collection and of everything in it may come
in. -/
theorem reorders_inKeyOrder (c : Collection) : c.toJson.Reorders c.toJson.inKeyOrder := by
  refine Json.reorders_object_inKeyOrder (by simp) ?_
  intro m hm
  simp only [List.mem_cons, List.not_mem_nil, or_false] at hm
  rcases hm with rfl | rfl | rfl
  · simp [Json.Reorders, Json.inKeyOrder]
  · refine Json.reorders_array_inKeyOrder ?_
    intro i hi
    obtain ⟨f, -, rfl⟩ := List.mem_map.mp hi
    exact f.reorders_inKeyOrder
  · refine Json.reorders_object_inKeyOrder (by simp [Operation.all, Operation.name]) ?_
    intro m hm
    obtain ⟨o, -, rfl⟩ := List.mem_map.mp hm
    cases c.rules.rule o <;> simp [Json.ofText?, Json.Reorders, Json.inKeyOrder]

/-- A collection comes back from its JSON form with the members of every object in any order. -/
theorem ofJson?_of_reorders {c : Collection} {j : Json} (h : c.toJson.Reorders j) :
    ofJson? j = some c := by
  simp only [toJson, Json.Reorders, MembersReorder] at h
  obtain ⟨_, placed, rfl, ⟨_, _, rfl, rfl, _, _, rfl, ⟨items, rfl, hitems⟩, rules, _, rfl, hrules,
    rfl⟩, hperm⟩ := h
  have hmem : ("fields", Json.array items) ∈ placed := hperm.mem_iff.mp (by simp)
  have hdepth : Json.itemsDepth items ≤ (Json.object placed).depth := by
    have hle := Json.depth_le_membersDepth hmem
    simp only [Json.depth] at hle ⊢
    omega
  rw [ofJson?, ofDocument?_of_perm hitems hrules hperm, if_pos hdepth]

end Collection

/-! ## The text of the JSON form -/

/-- How many lists stand inside each other in a type. -/
def FieldType.depth : FieldType → Nat
  | .list items => items.depth + 1
  | _ => 0

/-- The JSON form of a type nests as deep as its lists do. -/
theorem FieldType.membersDepth_members (t : FieldType) :
    Json.membersDepth t.members = t.depth := by
  induction t with
  | list items ih => simp [members, Json.membersDepth, Json.depth, depth, ih]
  | _ => simp [members, Json.membersDepth, Json.depth, depth]

/-- A field nests one level deeper than its type, whose members stand in its own object. -/
theorem Field.depth_toJson (f : Field) : f.toJson.depth = f.type.depth + 1 := by
  cases h : f.type <;> simp [toJson, h, FieldType.members, FieldType.depth, Json.depth,
    Json.membersDepth, FieldType.membersDepth_members]

theorem FieldType.numberFree_members (t : FieldType) :
    ∀ m ∈ t.members, Json.NumberFree m.2 := by
  induction t with
  | list items ih =>
    intro m hm
    simp only [members, List.mem_cons, List.not_mem_nil, or_false] at hm
    rcases hm with rfl | rfl
    · exact .string _
    · exact .object ih
  | _ => simp [members, Json.NumberFree.string]

theorem Field.numberFree_toJson (f : Field) : f.toJson.NumberFree := by
  refine .object ?_
  intro m hm
  simp only [List.mem_append, List.mem_cons, List.not_mem_nil, or_false] at hm
  rcases hm with (rfl | hm) | rfl | rfl
  · exact .string _
  · exact f.type.numberFree_members m hm
  · exact .bool _
  · exact .bool _

namespace Collection

/-- There are no numbers in the JSON form of a collection, so its text has no rounding to do. -/
theorem numberFree_toJson (c : Collection) : c.toJson.NumberFree := by
  refine .object ?_
  intro m hm
  simp only [List.mem_cons, List.not_mem_nil, or_false] at hm
  rcases hm with rfl | rfl | rfl
  · exact .string _
  · refine .array ?_
    intro i hi
    obtain ⟨f, -, rfl⟩ := List.mem_map.mp hi
    exact f.numberFree_toJson
  · refine .object ?_
    intro m hm
    obtain ⟨o, -, rfl⟩ := List.mem_map.mp hm
    cases c.rules.rule o with
    | none => exact .null
    | some s => exact .string s

/-- Some fields nest within a limit if the type of each leaves the level that the field itself
takes. -/
theorem itemsDepth_fields_le (fields : List Field) (levels : Nat) :
    Json.itemsDepth (fields.map Field.toJson) ≤ levels ↔ ∀ f ∈ fields, f.type.depth < levels := by
  induction fields with
  | nil => simp [Json.itemsDepth]
  | cons f fields ih =>
    rw [List.map_cons, Json.itemsDepth, Nat.max_le, Field.depth_toJson, ih, List.forall_mem_cons]
    exact Iff.rfl

/-- The text of a collection is read back unless a field nests beyond the limit of a text, of which
the collection and its list of fields take two levels. -/
theorem read?_compact (c : Collection) :
    read? c.toJson.compact =
      if ∀ f ∈ c.fields, f.type.depth < Json.maxNesting - 2 then some c else none := by
  rw [read?, c.numberFree_toJson.read?_compact, Option.bind_some, toJson,
    ofDocument?_of_perm (Json.itemsReorder_refl _) (Json.reorders_refl _) (.refl _)]
  simp only [itemsDepth_fields_le]

/-- A collection comes back unchanged from its JSON form, be the members of the objects in the order
of the collection or in that of their keys; so for each operation no rule, an empty rule and any other
stay apart. From the text of the form it comes back if no field nests too deep for a text. -/
theorem reads_back (c : Collection) :
    ofJson? c.toJson = some c ∧ ofJson? c.toJson.inKeyOrder = some c ∧
      read? c.toJson.compact =
        if ∀ f ∈ c.fields, f.type.depth < Json.maxNesting - 2 then some c else none :=
  ⟨ofJson?_of_reorders (Json.reorders_refl _), ofJson?_of_reorders c.reorders_inKeyOrder,
    c.read?_compact⟩

end Collection

end Schema

end AccessRules
