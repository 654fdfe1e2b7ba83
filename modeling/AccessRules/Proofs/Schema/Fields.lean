import AccessRules.Proofs.Dict
import AccessRules.Schema.Declaration
import Mathlib.Data.List.Forall2

/-!
# The fields of a collection

Every collection starts with the system fields, and a field that is added takes the place of the one
of its name or goes behind all others. `Collection.Keeps` says what this comes to over any history of
additions, and one addition keeps it:

> `keeps_addField`: after an addition the names still differ and start with those of the system fields,
> and a name leads to the field that was added under it last.
> `addFields_eq_ok_iff`: declared fields are added in their order, unless a name is reserved or a type is
> not known.
> `fields_well_formed`: both together, for every history of additions and for every declaration, whose
> collection has the system fields as they are and behind them the declared ones.
-/

namespace AccessRules.Schema

/-! ## Putting a field in its place -/

namespace Collection

variable {f : Field} {fs : List Field}

/-- A field of a new name comes last. -/
theorem placeField_of_notMem (h : f.name ∉ fs.map Field.name) : placeField f fs = fs ++ [f] := by
  induction fs with
  | nil => rfl
  | cons g fs ih =>
    rw [List.map_cons, List.mem_cons, not_or] at h
    rw [placeField, if_neg (Ne.symm h.1), ih h.2]
    rfl

/-- Among fields of different names the one of the same name is replaced, and all others stay where they
are. -/
theorem placeField_of_mem (hmem : f.name ∈ fs.map Field.name) (hnodup : (fs.map Field.name).Nodup) :
    placeField f fs = fs.map fun g => if g.name = f.name then f else g := by
  induction fs with
  | nil => cases hmem
  | cons g fs ih =>
    obtain ⟨hfirst, hrest⟩ := List.nodup_cons.mp hnodup
    rw [placeField, List.map_cons]
    by_cases hg : g.name = f.name
    · rw [if_pos hg, if_pos hg]
      -- No field behind the replaced one has its name.
      congr 1
      refine (List.map_id fs).symm.trans (List.map_congr_left ?_)
      intro x hx
      have hne : x.name ≠ f.name := by
        rintro hxf
        exact hfirst (hg.trans hxf.symm ▸ List.mem_map_of_mem hx)
      rw [if_neg hne]
      rfl
    · rw [if_neg hg, if_neg hg]
      have htail : f.name ∈ fs.map Field.name := by
        rcases List.mem_cons.mp hmem with heq | htail
        · exact absurd heq.symm hg
        · exact htail
      rw [ih htail hrest]

/-- Placing a field adds its name behind the others, if it is new, and moves none. -/
theorem names_placeField (f : Field) (fs : List Field) :
    (placeField f fs).map Field.name =
      if f.name ∈ fs.map Field.name then fs.map Field.name else fs.map Field.name ++ [f.name] := by
  induction fs with
  | nil => rfl
  | cons g fs ih =>
    rw [placeField]
    by_cases hg : g.name = f.name
    · simp [hg]
    · have hmem : f.name ∈ (g :: fs).map Field.name ↔ f.name ∈ fs.map Field.name := by
        rw [List.map_cons, List.mem_cons, or_iff_right (Ne.symm hg)]
      rw [if_neg hg, List.map_cons, ih]
      split
      next h => rw [if_pos (hmem.mpr h), List.map_cons]
      next h => rw [if_neg (mt hmem.mp h), List.map_cons, List.cons_append]

/-- Under its name the placed field is found, and under the others what was there before. -/
theorem find?_placeField (f : Field) (fs : List Field) (name : String) :
    (placeField f fs).find? (fun g => g.name = name) =
      if f.name = name then some f else fs.find? fun g => g.name = name := by
  induction fs with
  | nil => by_cases h : f.name = name <;> simp [placeField, h]
  | cons g fs ih =>
    rw [placeField]
    by_cases hg : g.name = f.name
    · rw [if_pos hg, List.find?_cons, List.find?_cons, hg]
      by_cases h : f.name = name <;> simp [h]
    · rw [if_neg hg, List.find?_cons, List.find?_cons, ih]
      by_cases h : g.name = name
      · have hne : ¬ f.name = name := fun hf => hg (h.trans hf.symm)
        simp [h, hne]
      · simp [h]

/-! ## Histories of additions -/

/-- The field that a name leads to after some additions: the last one that was added under it, or else
the system field of that name. -/
def latest? (added : List Field) (name : String) : Option Field :=
  (added.reverse ++ Field.systemFields).find? fun f => f.name = name

/-- What a collection keeps to after some additions: its fields have different names, the first three of
which are those of the system fields, and each leads to the latest field under it. -/
structure Keeps (c : Collection) (added : List Field) : Prop where
  nodup : c.fieldNames.Nodup
  system : Field.systemNames <+: c.fieldNames
  find : ∀ name, c.findField? name = latest? added name

variable {c : Collection} {added : List Field}

/-- A new collection has the system fields and no others. -/
theorem keeps_new (name : String) : (new name).Keeps [] where
  nodup := by
    show (Field.systemFields.map Field.name).Nodup
    decide
  system := List.prefix_refl _
  find := fun _ => rfl

/-- An addition keeps the names apart and those of the system fields in front, and from then on its
name leads to the field that was added. -/
theorem keeps_addField (h : c.Keeps added) (f : Field) : (c.addField f).Keeps (added ++ [f]) := by
  have hnames : (c.addField f).fieldNames =
      if f.name ∈ c.fieldNames then c.fieldNames else c.fieldNames ++ [f.name] :=
    names_placeField f c.fields
  refine ⟨?_, ?_, ?_⟩
  · rw [hnames]
    split
    next => exact h.nodup
    next hmem =>
      refine List.nodup_append.mpr ⟨h.nodup, List.pairwise_singleton _ _, ?_⟩
      rintro a ha b hb rfl
      exact hmem (List.mem_singleton.mp hb ▸ ha)
  · rw [hnames]
    split
    next => exact h.system
    next => exact h.system.trans (List.prefix_append _ _)
  · intro name
    -- Looked for from the end, the field that was added last comes first.
    have hlatest : latest? (added ++ [f]) name =
        if f.name = name then some f else latest? added name := by
      rw [latest?, List.reverse_append, List.reverse_singleton, List.singleton_append,
        List.cons_append, List.find?_cons]
      by_cases hf : f.name = name <;> simp [hf, latest?]
    rw [hlatest, ← h.find]
    exact find?_placeField f c.fields name

/-- Every history of additions keeps a new collection well formed. -/
theorem keeps_foldl (name : String) (added : List Field) :
    (added.foldl addField (new name)).Keeps added := by
  have hfrom : ∀ (more : List Field) (c : Collection) (added : List Field), c.Keeps added →
      (more.foldl addField c).Keeps (added ++ more) := by
    intro more
    induction more with
    | nil => exact fun c added h => by rwa [List.append_nil]
    | cons f more ih =>
      intro c added h
      rw [List.foldl_cons, List.append_cons]
      exact ih _ _ (keeps_addField h f)
  exact hfrom added (new name) [] (keeps_new name)

/-- An addition touches nothing else: the field takes the place of the one of its name, or goes behind
all others if there is none. -/
def AddsInPlace (c : Collection) : Prop :=
  ∀ f : Field, c.addField f = { c with fields :=
    if f.name ∈ c.fieldNames then c.fields.map fun g => if g.name = f.name then f else g
    else c.fields ++ [f] }

/-- With distinct names there is only one field to replace, so replacing the first one of a name is
replacing it. -/
theorem addsInPlace_of_nodup (h : c.fieldNames.Nodup) : c.AddsInPlace := by
  intro f
  unfold addField
  congr 1
  split
  next hmem => exact placeField_of_mem hmem h
  next hmem => exact placeField_of_notMem hmem

/-- Fields with new names that differ from each other are all appended. -/
theorem foldl_addField_of_nodup (h : (c.fieldNames ++ added.map Field.name).Nodup) :
    added.foldl addField c = { c with fields := c.fields ++ added } := by
  induction added generalizing c with
  | nil => rw [List.foldl_nil, List.append_nil]
  | cons f added ih =>
    have hnew : f.name ∉ c.fields.map Field.name := by
      intro hmem
      exact (List.nodup_append.mp h).2.2 _ hmem _ List.mem_cons_self rfl
    have hadded : c.addField f = { c with fields := c.fields ++ [f] } := by
      rw [addField, placeField_of_notMem hnew]
    have hrest : ((c.addField f).fieldNames ++ added.map Field.name).Nodup := by
      rw [hadded]
      simpa [fieldNames] using h
    rw [List.foldl_cons, ih hrest, hadded, List.append_assoc, List.singleton_append]

end Collection

/-! ## Declared fields -/

namespace FieldDeclaration

/-- The type that a declaration means: a simple one by its name, a list of a simple one, or a relation
that says to which collection. Where no type is said it is a text. -/
inductive Resolves (f : FieldDeclaration) : FieldType → Prop
  | simple {t : FieldType} : FieldType.ofSimpleName? (f.type.getD "string") = some t → Resolves f t
  | list {t : FieldType} : f.type = some "list" →
      FieldType.ofSimpleName? (f.items.getD "string") = some t → Resolves f (.list t)
  | relation {target : String} : f.type = some "relation" → f.collection = some target →
      Resolves f (.relation target)

/-- The default names a simple type, so what names none was written in the declaration. -/
theorem type_eq_of_not_simple {f : FieldDeclaration}
    (h : FieldType.ofSimpleName? (f.type.getD "string") = none) :
    f.type = some (f.type.getD "string") := by
  cases hf : f.type with
  | some typeName => rfl
  | none => simp [hf, FieldType.ofSimpleName?] at h

/-- A declaration has a type exactly if it resolves to it: a list needs a simple type for its items
and a relation a collection, and the parts that another type would need are not looked at. -/
theorem fieldType_eq_ok_iff {f : FieldDeclaration} {name : String} {t : FieldType} :
    f.fieldType name = .ok t ↔ f.Resolves t := by
  unfold fieldType
  dsimp only
  constructor
  · intro h
    cases hsimple : FieldType.ofSimpleName? (f.type.getD "string") with
    | some simple =>
      rw [hsimple] at h
      cases h
      exact .simple hsimple
    | none =>
      have htype := type_eq_of_not_simple hsimple
      simp only [hsimple] at h
      split at h
      -- Only a list looks at its items and only a relation at its collection.
      next hlist =>
        split at h
        next items hitems =>
          cases h
          exact .list (hlist ▸ htype) hitems
        next => cases h
      next =>
        split at h
        next hrelation =>
          split at h
          next target htarget =>
            cases h
            exact .relation (hrelation ▸ htype) htarget
          next => cases h
        next => cases h
  · intro h
    cases h with
    | simple hsimple => rw [hsimple]
    | list htype hitems =>
      have hnone : FieldType.ofSimpleName? "list" = none := rfl
      rw [htype, Option.getD_some, hnone]
      simp [hitems]
    | relation htype htarget =>
      have hnone : FieldType.ofSimpleName? "relation" = none := rfl
      rw [htype, Option.getD_some, hnone]
      simp [htarget]

/-- A field is the one that is declared under a name. -/
structure Declares (entry : String × FieldDeclaration) (f : Field) : Prop where
  name : f.name = entry.1
  type : entry.2.Resolves f.type
  required : f.required = true ↔ entry.2.required = some true
  system : f.system = false

/-- A declaration becomes a field exactly if its type resolves, and the field is then the declared
one. -/
theorem toField_eq_ok_iff {d : FieldDeclaration} {name : String} {f : Field} :
    d.toField name = .ok f ↔ Declares (name, d) f := by
  -- Not to say whether a field is required is to say that it is not.
  have hrequired : ∀ b : Bool, (b = true ↔ d.required = some true) ↔ b = d.required.getD false := by
    intro b
    cases d.required with
    | none => cases b <;> simp
    | some r => cases b <;> cases r <;> simp
  constructor
  · intro h
    cases htype : d.fieldType name with
    | error e => simp [toField, htype, Except.map] at h
    | ok t =>
      simp only [toField, htype, Except.map, Except.ok.injEq] at h
      subst h
      exact ⟨rfl, fieldType_eq_ok_iff.mp htype, (hrequired _).mpr rfl, rfl⟩
  · rintro ⟨hname, htype, hreq, hsystem⟩
    have hf : f = ⟨name, f.type, d.required.getD false, false⟩ := by
      rw [← (hrequired _).mp hreq, ← hsystem, ← show f.name = name from hname]
    rw [toField, fieldType_eq_ok_iff.mpr htype]
    exact congrArg Except.ok hf.symm

/-- Declared fields keep the names they were declared under, in their order. -/
theorem Declares.names_eq {entries : List (String × FieldDeclaration)} {fs : List Field}
    (h : List.Forall₂ Declares entries fs) : fs.map Field.name = Dict.keys entries := by
  induction h with
  | nil => rfl
  | cons hfirst _ ih => rw [List.map_cons, hfirst.name, ih, Dict.keys, Dict.keys, List.map_cons]

/-- Where every type resolves there are fields to declare. -/
theorem exists_declares_iff {entries : List (String × FieldDeclaration)} :
    (∃ fs, List.Forall₂ Declares entries fs) ↔ ∀ e ∈ entries, ∃ t, e.2.Resolves t := by
  induction entries with
  | nil => simp
  | cons e entries ih =>
    rw [List.forall_mem_cons, ← ih]
    constructor
    · rintro ⟨fs, h⟩
      cases h with
      | cons hfirst hrest => exact ⟨⟨_, hfirst.type⟩, _, hrest⟩
    · rintro ⟨⟨t, ht⟩, fs, hrest⟩
      have hrequired : e.2.required.getD false = true ↔ e.2.required = some true := by
        cases e.2.required <;> simp
      exact ⟨⟨e.1, t, e.2.required.getD false, false⟩ :: fs, .cons ⟨rfl, ht, hrequired, rfl⟩ hrest⟩

end FieldDeclaration

/-! ## Declared collections -/

namespace CollectionDeclaration

open FieldDeclaration

/-- Declared fields are added in their order, unless a name is reserved or a type does not resolve. -/
theorem addFields_eq_ok_iff {c c' : Collection} {entries : List (String × FieldDeclaration)} :
    addFields c entries = .ok c' ↔ (∀ e ∈ entries, e.1 ∉ Field.systemNames) ∧
      ∃ declared, List.Forall₂ Declares entries declared ∧
        c' = declared.foldl Collection.addField c := by
  induction entries generalizing c with
  | nil =>
    rw [addFields, Except.ok.injEq]
    constructor
    · rintro rfl
      exact ⟨by simp, [], .nil, rfl⟩
    · rintro ⟨-, declared, hdeclared, rfl⟩
      cases hdeclared
      rfl
  | cons e entries ih =>
    obtain ⟨name, d⟩ := e
    have hreserved : Field.isSystemName name = true ↔ name ∈ Field.systemNames := by
      simp [Field.isSystemName]
    rw [List.forall_mem_cons]
    constructor
    · intro h
      rw [addFields] at h
      split at h
      next => cases h
      next hname =>
        split at h
        next => cases h
        next f hf =>
          obtain ⟨hnames, declared, hdeclared, rfl⟩ := ih.mp h
          refine ⟨⟨mt hreserved.mpr hname, hnames⟩, f :: declared, .cons ?_ hdeclared, rfl⟩
          exact toField_eq_ok_iff.mp hf
    · rintro ⟨⟨hname, hnames⟩, declared, hdeclared, rfl⟩
      cases hdeclared with
      | cons hf hrest =>
        rw [addFields, if_neg (mt hreserved.mp hname), toField_eq_ok_iff.mpr hf]
        exact ih.mpr ⟨hnames, _, hrest, rfl⟩

variable {d : CollectionDeclaration}

/-- The declared fields of a collection are all appended to the system fields. -/
theorem foldl_declared (hd : d.fields.Ordered) (hnames : ∀ e ∈ d.fields, e.1 ∉ Field.systemNames)
    {declared : List Field} (h : List.Forall₂ Declares d.fields declared) (name : String) :
    declared.foldl Collection.addField (.new name) =
      ⟨name, Field.systemFields ++ declared, .empty⟩ := by
  apply Collection.foldl_addField_of_nodup
  rw [Declares.names_eq h]
  refine List.nodup_append.mpr ⟨(Collection.keeps_new name).nodup, hd.nodup_keys, ?_⟩
  rintro _ hsystem _ hkey rfl
  obtain ⟨e, he, rfl⟩ := List.mem_map.mp hkey
  exact hnames e he hsystem

/-- A declaration becomes a collection exactly if all its fields can be made, and then the declared
fields stand behind the system fields in the order of their names. -/
theorem toCollection_eq_ok_iff (hd : d.fields.Ordered) {name : String} {c : Collection} :
    d.toCollection name = .ok c ↔ (∀ e ∈ d.fields, e.1 ∉ Field.systemNames) ∧
      ∃ declared, List.Forall₂ Declares d.fields declared ∧
        c = ⟨name, Field.systemFields ++ declared, d.rules⟩ := by
  unfold toCollection
  constructor
  · intro h
    cases hadd : addFields (.new name) d.fields with
    | error e => simp [hadd, Except.map] at h
    | ok c' =>
      rw [hadd] at h
      obtain ⟨hnames, declared, hdeclared, hc'⟩ := addFields_eq_ok_iff.mp hadd
      rw [foldl_declared hd hnames hdeclared] at hc'
      subst hc'
      exact ⟨hnames, declared, hdeclared, (Except.ok.inj h).symm⟩
  · rintro ⟨hnames, declared, hdeclared, rfl⟩
    rw [addFields_eq_ok_iff.mpr ⟨hnames, declared, hdeclared, rfl⟩,
      foldl_declared hd hnames hdeclared]
    rfl

end CollectionDeclaration

open CollectionDeclaration in
/-- **The fields of a collection are well formed.** Whatever was added to a new collection, the names of
its fields differ, the first three are those of the system fields, a name leads to the field that was
added under it last or else to the system field, and one more addition touches no other field. A
declaration makes a collection exactly if no name in it is reserved and every type resolves; it has the
system fields as they are and behind them the declared ones, all of them in the order of their names, and
is as well formed as if they had been added. -/
theorem fields_well_formed (name : String) (added : List Field) (d : CollectionDeclaration)
    (hd : d.fields.Ordered) :
    ((added.foldl Collection.addField (.new name)).Keeps added ∧
      (added.foldl Collection.addField (.new name)).AddsInPlace) ∧
    ((∃ c, d.toCollection name = .ok c) ↔
      ∀ e ∈ d.fields, e.1 ∉ Field.systemNames ∧ ∃ t, e.2.Resolves t) ∧
    ∀ c, d.toCollection name = .ok c →
      ∃ declared, List.Forall₂ FieldDeclaration.Declares d.fields declared ∧
        c = ⟨name, Field.systemFields ++ declared, d.rules⟩ ∧ c.Keeps declared ∧ c.AddsInPlace := by
  have hkeeps := Collection.keeps_foldl name added
  refine ⟨⟨hkeeps, Collection.addsInPlace_of_nodup hkeeps.nodup⟩, ?_, ?_⟩
  · constructor
    · rintro ⟨c, hc⟩ e he
      obtain ⟨hnames, declared, hdeclared, -⟩ := (toCollection_eq_ok_iff hd).mp hc
      exact ⟨hnames e he, FieldDeclaration.exists_declares_iff.mp ⟨declared, hdeclared⟩ e he⟩
    · intro h
      obtain ⟨declared, hdeclared⟩ :=
        FieldDeclaration.exists_declares_iff.mpr fun e he => (h e he).2
      exact ⟨_, (toCollection_eq_ok_iff hd).mpr ⟨fun e he => (h e he).1, declared, hdeclared, rfl⟩⟩
  · intro c hc
    obtain ⟨hnames, declared, hdeclared, rfl⟩ := (toCollection_eq_ok_iff hd).mp hc
    -- Every declared name is new and comes behind those before it, so each addition puts its field
    -- at the end.
    have hadded := Collection.keeps_foldl name declared
    rw [foldl_declared hd hnames hdeclared] at hadded
    have hdeclaredKeeps : Collection.Keeps ⟨name, Field.systemFields ++ declared, d.rules⟩ declared :=
      ⟨hadded.nodup, hadded.system, hadded.find⟩
    exact ⟨declared, hdeclared, rfl, hdeclaredKeeps,
      Collection.addsInPlace_of_nodup hdeclaredKeeps.nodup⟩

/-- A field that is added twice, a system field that is replaced, and a declaration with a relation and a
list of texts. -/
theorem fields_well_formed_posts :
    let added : List Field := [⟨"note", .string, true, false⟩, ⟨"created", .int, false, false⟩,
      ⟨"note", .json, false, false⟩]
    let d : CollectionDeclaration := ⟨[("author", ⟨some "relation", some true, none, some "users"⟩),
      ("tags", ⟨some "list", none, none, none⟩)], .empty⟩
    d.fields.Ordered ∧
      (added.foldl Collection.addField (.new "posts")).findField? "note" =
        some ⟨"note", .json, false, false⟩ ∧
      ∃ c, d.toCollection "posts" = .ok c ∧
        c.findField? "tags" = some ⟨"tags", .list .string, false, false⟩ ∧
        Field.systemNames <+: c.fieldNames := by
  intro added d
  have hd : d.fields.Ordered := by
    show List.Pairwise (fun a b : String × FieldDeclaration => a.1 < b.1) _
    decide
  obtain ⟨⟨hkeeps, -⟩, -, hdeclared⟩ := fields_well_formed "posts" added d hd
  have hc : d.toCollection "posts" = .ok ⟨"posts", Field.systemFields ++
      [⟨"author", .relation "users", true, false⟩, ⟨"tags", .list .string, false, false⟩], .empty⟩ := rfl
  refine ⟨hd, hkeeps.find "note", _, hc, by decide, ?_⟩
  obtain ⟨declared, -, -, hkeeps', -⟩ := hdeclared _ hc
  exact hkeeps'.system

end AccessRules.Schema
