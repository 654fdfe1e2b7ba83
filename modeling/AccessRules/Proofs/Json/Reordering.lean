import AccessRules.Proofs.Dict
import AccessRules.Json.Document

/-!
# The order of members

An object may be kept with its members in any order, above all in the order of their keys. `Reorders`
says that two values differ in nothing but the order of members, at any depth:

> `reorders_refl`: a value is an order of itself.
> `reorders_array_inKeyOrder`, `reorders_object_inKeyOrder`: with the members in key order it is
> another one, if no key comes up twice in an object.
-/

namespace AccessRules.Json

mutual

/-- The second value is the first with the members of every object in some order. -/
def Reorders : Json → Json → Prop
  | .array items, j => ∃ items', j = .array items' ∧ ItemsReorder items items'
  | .object members, j =>
    ∃ members' placed, j = .object placed ∧ MembersReorder members members' ∧ members'.Perm placed
  | scalar, j => j = scalar

/-- Item by item the second ones are the first with the members in some order. -/
def ItemsReorder : List Json → List Json → Prop
  | [], items' => items' = []
  | item :: items, items' =>
    ∃ item' rest, items' = item' :: rest ∧ Reorders item item' ∧ ItemsReorder items rest

/-- Key by key the values of the second members are those of the first with the members in some
order. -/
def MembersReorder : List (String × Json) → List (String × Json) → Prop
  | [], members' => members' = []
  | (key, item) :: members, members' =>
    ∃ item' rest, members' = (key, item') :: rest ∧ Reorders item item' ∧ MembersReorder members rest

end

/-- A text or null has no members, so nothing about it can be put in another order. -/
theorem reorders_ofText? {text : Option String} {j : Json} :
    (Json.ofText? text).Reorders j ↔ j = Json.ofText? text := by
  cases text <;> simp [ofText?, Reorders]

mutual

/-- A value is an order of itself. -/
theorem reorders_refl : (j : Json) → j.Reorders j
  | .null => by simp [Reorders]
  | .bool _ => by simp [Reorders]
  | .int _ => by simp [Reorders]
  | .float _ => by simp [Reorders]
  | .string _ => by simp [Reorders]
  | .array items => by
    rw [Reorders]
    exact ⟨items, rfl, itemsReorder_refl items⟩
  | .object members => by
    rw [Reorders]
    exact ⟨members, members, rfl, membersReorder_refl members, .refl _⟩

theorem itemsReorder_refl : (items : List Json) → ItemsReorder items items
  | [] => by rw [ItemsReorder]
  | item :: items => by
    rw [ItemsReorder]
    exact ⟨item, items, rfl, reorders_refl item, itemsReorder_refl items⟩

theorem membersReorder_refl : (members : List (String × Json)) → MembersReorder members members
  | [] => by rw [MembersReorder]
  | (key, item) :: members => by
    rw [MembersReorder]
    exact ⟨item, members, rfl, reorders_refl item, membersReorder_refl members⟩

end

/-- The keys stay in their order; only what is inside the values moves. -/
theorem MembersReorder.keys {members members' : List (String × Json)}
    (h : MembersReorder members members') : members'.map Prod.fst = members.map Prod.fst := by
  induction members generalizing members' with
  | nil =>
    rw [MembersReorder] at h
    rw [h]
  | cons member members ih =>
    rw [MembersReorder] at h
    obtain ⟨item', rest, rfl, -, hrest⟩ := h
    simp [ih hrest]

/-- What is made of two groups of members is made of each of them. -/
theorem membersReorder_append {first second members' : List (String × Json)} :
    MembersReorder (first ++ second) members' ↔
      ∃ first' second', members' = first' ++ second' ∧ MembersReorder first first' ∧
        MembersReorder second second' := by
  induction first generalizing members' with
  | nil =>
    simp only [MembersReorder, List.nil_append]
    constructor
    · exact fun h => ⟨[], members', rfl, rfl, h⟩
    · rintro ⟨-, second', rfl, rfl, h⟩
      exact h
  | cons member first ih =>
    simp only [List.cons_append, MembersReorder, ih]
    constructor
    · rintro ⟨item', rest, rfl, hitem, first', second', rfl, hfirst, hsecond⟩
      exact ⟨(member.1, item') :: first', second', rfl, ⟨item', first', rfl, hitem, hfirst⟩, hsecond⟩
    · rintro ⟨-, second', rfl, ⟨item', first', rfl, hitem, hfirst⟩, hsecond⟩
      exact ⟨item', first' ++ second', rfl, hitem, first', second', rfl, hfirst, hsecond⟩

/-! ## Key order -/

theorem itemsReorder_inKeyOrder {items : List Json} (h : ∀ i ∈ items, i.Reorders i.inKeyOrder) :
    ItemsReorder items (itemsInKeyOrder items) := by
  induction items with
  | nil => rw [ItemsReorder, itemsInKeyOrder]
  | cons item items ih =>
    rw [ItemsReorder, itemsInKeyOrder]
    exact ⟨_, _, rfl, h item List.mem_cons_self, ih fun i hi => h i (List.mem_cons_of_mem _ hi)⟩

theorem membersReorder_inKeyOrder {members : List (String × Json)}
    (h : ∀ m ∈ members, m.2.Reorders m.2.inKeyOrder) :
    MembersReorder members (membersInKeyOrder members) := by
  induction members with
  | nil => rw [MembersReorder, membersInKeyOrder]
  | cons member members ih =>
    rw [MembersReorder, membersInKeyOrder]
    exact ⟨_, _, rfl, h member List.mem_cons_self, ih fun m hm => h m (List.mem_cons_of_mem _ hm)⟩

/-- An array in key order is a reordering of the array, if each item is one of its own. -/
theorem reorders_array_inKeyOrder {items : List Json} (h : ∀ i ∈ items, i.Reorders i.inKeyOrder) :
    (Json.array items).Reorders (Json.array items).inKeyOrder := by
  rw [Reorders, inKeyOrder]
  exact ⟨_, rfl, itemsReorder_inKeyOrder h⟩

/-- Where no key comes up twice, nothing is lost when the members are put in key order. -/
theorem reorders_object_inKeyOrder {members : List (String × Json)}
    (hkeys : (members.map Prod.fst).Nodup) (h : ∀ m ∈ members, m.2.Reorders m.2.inKeyOrder) :
    (Json.object members).Reorders (Json.object members).inKeyOrder := by
  have hmembers := membersReorder_inKeyOrder h
  rw [Reorders, inKeyOrder]
  exact ⟨_, _, rfl, hmembers, (Dict.ofList_perm (hmembers.keys ▸ hkeys)).symm⟩

end AccessRules.Json
