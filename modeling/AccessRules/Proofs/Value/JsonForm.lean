import AccessRules.Proofs.Dict
import AccessRules.Proofs.Json.Writing
import AccessRules.Value.Json

/-!
# The JSON form of a value

A value has a JSON form and is written down without it, and a JSON value is read as a value. The form
keeps whole numbers and floating-point ones apart, so it comes back as the value that it was made of,
except that objects and numbers off the line have become null:

> `ofJson_toJson`: what comes back from the form of a value is the value with nulls for these.
> `toJson_ofJson_iff`: a JSON value comes back exactly if its numbers are such as values have.
> `write_eq_write_toJson`: a writer of JSON makes the same of a value as of its form.
> `json_forms_agree`: the three together, for the JSON value and for both texts.
-/

namespace AccessRules

open Number

/-! ## Values that JSON has, and JSON values that are values -/

namespace Value

mutual

/-- A value in which there is no object and every number is on the line. -/
def Plain : Value → Prop
  | .float x => x.isFinite = true
  | .list items => ItemsPlain items
  | .map entries => EntriesPlain entries
  | .object .. => False
  | _ => True

/-- Every item is plain. -/
def ItemsPlain : List Value → Prop
  | [] => True
  | item :: items => Plain item ∧ ItemsPlain items

/-- The value of every entry is plain. -/
def EntriesPlain : List (String × Value) → Prop
  | [] => True
  | (_, value) :: entries => Plain value ∧ EntriesPlain entries

end

mutual

/-- The value with null in place of every object and every number off the line. -/
def withNulls : Value → Value
  | .float x => if x.isFinite then .float x else .null
  | .list items => .list (itemsWithNulls items)
  | .map entries => .map (entriesWithNulls entries)
  | .object .. => .null
  | value => value

/-- The items with nulls in them. -/
def itemsWithNulls : List Value → List Value
  | [] => []
  | item :: items => withNulls item :: itemsWithNulls items

/-- The entries with nulls in their values. -/
def entriesWithNulls : List (String × Value) → List (String × Value)
  | [] => []
  | (key, value) :: entries => (key, withNulls value) :: entriesWithNulls entries

end

mutual

/-- A value whose maps are all in key order. -/
def Ordered : Value → Prop
  | .list items => ItemsOrdered items
  | .map entries => Dict.Ordered entries ∧ EntriesOrdered entries
  | _ => True

/-- The maps in every item are in key order. -/
def ItemsOrdered : List Value → Prop
  | [] => True
  | item :: items => Ordered item ∧ ItemsOrdered items

/-- The maps in the value of every entry are in key order. -/
def EntriesOrdered : List (String × Value) → Prop
  | [] => True
  | (_, value) :: entries => Ordered value ∧ EntriesOrdered entries

end

end Value

namespace Json

mutual

/-- A JSON value whose whole numbers fit 64 bits with a sign and whose other numbers are on the
line. -/
def InRange : Json → Prop
  | .int i => -(Nat.pow 2 63 : Nat) ≤ i ∧ i < (Nat.pow 2 63 : Nat)
  | .float x => x.isFinite = true
  | .array items => ItemsInRange items
  | .object members => MembersInRange members
  | _ => True

/-- The numbers of every item are in range. -/
def ItemsInRange : List Json → Prop
  | [] => True
  | item :: items => InRange item ∧ ItemsInRange items

/-- The numbers of every member are in range. -/
def MembersInRange : List (String × Json) → Prop
  | [] => True
  | (_, item) :: members => InRange item ∧ MembersInRange members

end

end Json

namespace Value

/-! ## There and back -/

theorem inRange_toInt (i : Int64) : (Json.int i.toInt).InRange :=
  ⟨i.le_toInt, i.toInt_lt⟩

/-- A whole number in range becomes an integer. -/
theorem ofJson_int_of_inRange {i : Int} (h : (Json.int i).InRange) :
    ofJson (.int i) = .int (Int64.ofInt i) := by
  rw [ofJson, if_pos]
  exact Bool.and_eq_true_iff.mpr ⟨decide_eq_true h.1, decide_eq_true h.2⟩

/-- A whole number out of range becomes the nearest floating-point number. -/
theorem ofJson_int_of_not_inRange {i : Int} (h : ¬(Json.int i).InRange) :
    ofJson (.int i) = .float (.ofInt i) := by
  rw [ofJson, if_neg]
  intro hfits
  obtain ⟨hlow, hhigh⟩ := Bool.and_eq_true_iff.mp hfits
  exact h ⟨of_decide_eq_true hlow, of_decide_eq_true hhigh⟩

mutual

/-- **What comes back from the JSON form of a value** is the value, with null for what has no form. -/
theorem ofJson_toJson : (v : Value) → ofJson v.toJson = v.withNulls
  | .null => rfl
  | .bool _ => rfl
  | .string _ => rfl
  | .object .. => rfl
  | .int i => by
    rw [toJson, ofJson_int_of_inRange (inRange_toInt i), Int64.ofInt_toInt]
    rfl
  | .float x => by
    rw [toJson, withNulls]
    split <;> rfl
  | .list items => by rw [toJson, ofJson, withNulls, itemsOfJson_itemsToJson items]
  | .map entries => by rw [toJson, ofJson, withNulls, membersOfJson_entriesToJson entries]

theorem itemsOfJson_itemsToJson :
    (items : List Value) → itemsOfJson (itemsToJson items) = itemsWithNulls items
  | [] => rfl
  | item :: items => by
    rw [itemsToJson, itemsOfJson, itemsWithNulls, ofJson_toJson item,
      itemsOfJson_itemsToJson items]

/-- Entries come back from JSON under their keys, with null for what JSON has no form for. -/
theorem membersOfJson_entriesToJson :
    (entries : List (String × Value)) →
      membersOfJson (entriesToJson entries) = entriesWithNulls entries
  | [] => rfl
  | (key, value) :: entries => by
    rw [entriesToJson, membersOfJson, entriesWithNulls, ofJson_toJson value,
      membersOfJson_entriesToJson entries]

end

mutual

/-- There is nothing to put null for exactly in a plain value. -/
theorem withNulls_eq_iff : (v : Value) → v.withNulls = v ↔ v.Plain
  | .null => by simp [withNulls, Plain]
  | .bool _ => by simp [withNulls, Plain]
  | .int _ => by simp [withNulls, Plain]
  | .string _ => by simp [withNulls, Plain]
  | .object .. => by simp [withNulls, Plain]
  | .float x => by
    rw [withNulls, Plain]
    split <;> simp [*]
  | .list items => by rw [withNulls, Plain, list.injEq, itemsWithNulls_eq_iff items]
  | .map entries => by rw [withNulls, Plain, map.injEq, entriesWithNulls_eq_iff entries]

theorem itemsWithNulls_eq_iff :
    (items : List Value) → itemsWithNulls items = items ↔ ItemsPlain items
  | [] => by simp [itemsWithNulls, ItemsPlain]
  | item :: items => by
    rw [itemsWithNulls, ItemsPlain, List.cons.injEq, withNulls_eq_iff item,
      itemsWithNulls_eq_iff items]

theorem entriesWithNulls_eq_iff :
    (entries : List (String × Value)) → entriesWithNulls entries = entries ↔ EntriesPlain entries
  | [] => by simp [entriesWithNulls, EntriesPlain]
  | (key, value) :: entries => by
    rw [entriesWithNulls, EntriesPlain, List.cons.injEq, Prod.mk.injEq, withNulls_eq_iff value,
      entriesWithNulls_eq_iff entries]
    simp

end

mutual

/-- **A JSON value comes back from the value that it is read as** exactly if its numbers are such as
values have. -/
theorem toJson_ofJson_iff : (j : Json) → (ofJson j).toJson = j ↔ j.InRange
  | .null => by simp [ofJson, toJson, Json.InRange]
  | .bool _ => by simp [ofJson, toJson, Json.InRange]
  | .string _ => by simp [ofJson, toJson, Json.InRange]
  | .int i => by
    by_cases h : (Json.int i).InRange
    · -- In range it is read as an integer, which is written as it was.
      rw [ofJson_int_of_inRange h, toJson, Int64.toInt_ofInt_of_le h.1 h.2]
      exact iff_of_true rfl h
    · -- Out of range it is read as a floating-point number, which has no whole number for its form.
      rw [ofJson_int_of_not_inRange h, toJson]
      refine iff_of_false ?_ h
      split <;> nofun
  | .float x => by
    rw [ofJson, toJson, Json.InRange]
    split <;> simp [*]
  | .array items => by
    rw [ofJson, toJson, Json.InRange, Json.array.injEq, itemsToJson_itemsOfJson_iff items]
  | .object members => by
    rw [ofJson, toJson, Json.InRange, Json.object.injEq, entriesToJson_membersOfJson_iff members]

theorem itemsToJson_itemsOfJson_iff : (items : List Json) →
    itemsToJson (itemsOfJson items) = items ↔ Json.ItemsInRange items
  | [] => by simp [itemsOfJson, itemsToJson, Json.ItemsInRange]
  | item :: items => by
    rw [itemsOfJson, itemsToJson, Json.ItemsInRange, List.cons.injEq, toJson_ofJson_iff item,
      itemsToJson_itemsOfJson_iff items]

theorem entriesToJson_membersOfJson_iff : (members : List (String × Json)) →
    entriesToJson (membersOfJson members) = members ↔ Json.MembersInRange members
  | [] => by simp [membersOfJson, entriesToJson, Json.MembersInRange]
  | (key, item) :: members => by
    rw [membersOfJson, entriesToJson, Json.MembersInRange, List.cons.injEq, Prod.mk.injEq,
      toJson_ofJson_iff item, entriesToJson_membersOfJson_iff members]
    simp

end

mutual

/-- The numbers in the JSON form of a value are such as values have. -/
theorem inRange_toJson : (v : Value) → v.toJson.InRange
  | .null => trivial
  | .bool _ => trivial
  | .string _ => trivial
  | .object .. => trivial
  | .int i => inRange_toInt i
  | .float x => by
    rw [toJson]
    split
    next h => exact h
    next => trivial
  | .list items => itemsInRange_itemsToJson items
  | .map entries => membersInRange_entriesToJson entries

theorem itemsInRange_itemsToJson :
    (items : List Value) → Json.ItemsInRange (itemsToJson items)
  | [] => trivial
  | item :: items => ⟨inRange_toJson item, itemsInRange_itemsToJson items⟩

theorem membersInRange_entriesToJson :
    (entries : List (String × Value)) → Json.MembersInRange (entriesToJson entries)
  | [] => trivial
  | (_, value) :: entries => ⟨inRange_toJson value, membersInRange_entriesToJson entries⟩

end

/-! ## Writing down -/

section

variable {α : Type} {writer : Json.Writer α}

mutual

/-- **A writer of JSON makes the same of a value as of its JSON form.** -/
theorem write_eq_write_toJson (h : writer.OfJson) :
    (v : Value) → v.write writer = v.toJson.write writer
  | .null => h.missing_eq
  | .bool _ => rfl
  | .int _ => rfl
  | .string _ => rfl
  | .object .. => h.missing_eq
  | .float x => by
    rw [write, toJson]
    -- Off the line both write that nothing is there.
    split
    next => rfl
    next hline => exact h.float_eq x (Bool.eq_false_iff.mpr hline)
  | .list items => congrArg writer.list (writeItems_eq_writeItems_toJson h items)
  | .map entries => congrArg writer.map (writeEntries_eq_writeMembers_toJson h entries)

theorem writeItems_eq_writeItems_toJson (h : writer.OfJson) :
    (items : List Value) → writeItems writer items = Json.writeItems writer (itemsToJson items)
  | [] => rfl
  | item :: items => by
    rw [writeItems, itemsToJson, Json.writeItems, write_eq_write_toJson h item,
      writeItems_eq_writeItems_toJson h items]

theorem writeEntries_eq_writeMembers_toJson (h : writer.OfJson) :
    (entries : List (String × Value)) →
      writeEntries writer entries = Json.writeMembers writer (entriesToJson entries)
  | [] => rfl
  | (key, value) :: entries => by
    rw [writeEntries, entriesToJson, Json.writeMembers, write_eq_write_toJson h value,
      writeEntries_eq_writeMembers_toJson h entries]

end

end

end Value

namespace Json

mutual

/-- Writing a JSON value as a JSON value gives it back, as all its numbers are on the line. -/
theorem write_value : (j : Json) → j.InRange → j.write .value = j
  | .null, _ => rfl
  | .bool _, _ => rfl
  | .int _, _ => rfl
  | .string _, _ => rfl
  | .float _, h => if_pos h
  | .array items, h => congrArg array (writeItems_value items h)
  | .object members, h => congrArg object (writeMembers_value members h)

theorem writeItems_value :
    (items : List Json) → ItemsInRange items → writeItems .value items = items
  | [], _ => rfl
  | item :: items, h => by
    rw [writeItems, write_value item h.1, writeItems_value items h.2]

theorem writeMembers_value :
    (members : List (String × Json)) → MembersInRange members →
      writeMembers .value members = members
  | [], _ => rfl
  | (key, item) :: members, h => by
    rw [writeMembers, write_value item h.1, writeMembers_value members h.2]

end

end Json

namespace Value

/-! ## The order of members -/

/-- The JSON form keeps the keys. -/
theorem keys_entriesToJson (entries : List (String × Value)) :
    (entriesToJson entries).map Prod.fst = entries.map Prod.fst := by
  induction entries with
  | nil => rfl
  | cons entry entries ih => rw [entriesToJson, List.map_cons, List.map_cons, ih]

/-- The JSON forms of the entries of a dictionary are one. -/
theorem ordered_entriesToJson {entries : Dict Value} (h : entries.Ordered) :
    Dict.Ordered (entriesToJson entries) := by
  have hkeys : (entries.map Prod.fst).Pairwise (· < ·) := List.pairwise_map.mpr h
  rw [← keys_entriesToJson] at hkeys
  exact List.pairwise_map.mp hkeys

mutual

/-- The JSON form of a value keeps its maps in key order. -/
theorem inKeyOrder_toJson : (v : Value) → v.Ordered → v.toJson.inKeyOrder = v.toJson
  | .null, _ => rfl
  | .bool _, _ => rfl
  | .int _, _ => rfl
  | .string _, _ => rfl
  | .object .., _ => rfl
  | .float x, _ => by
    rw [toJson]
    split <;> rfl
  | .list items, h => congrArg Json.array (itemsInKeyOrder_itemsToJson items h)
  | .map entries, h => by
    rw [toJson, Json.inKeyOrder, membersInKeyOrder_entriesToJson entries h.2,
      (ordered_entriesToJson h.1).ofList_eq]

theorem itemsInKeyOrder_itemsToJson : (items : List Value) → ItemsOrdered items →
    Json.itemsInKeyOrder (itemsToJson items) = itemsToJson items
  | [], _ => rfl
  | item :: items, h => by
    rw [itemsToJson, Json.itemsInKeyOrder, inKeyOrder_toJson item h.1,
      itemsInKeyOrder_itemsToJson items h.2]

theorem membersInKeyOrder_entriesToJson : (entries : List (String × Value)) →
    EntriesOrdered entries →
      Json.membersInKeyOrder (entriesToJson entries) = entriesToJson entries
  | [], _ => rfl
  | (key, value) :: entries, h => by
    rw [entriesToJson, Json.membersInKeyOrder, inKeyOrder_toJson value h.1,
      membersInKeyOrder_entriesToJson entries h.2]

end

/-! ## All together -/

/-- **Values and their JSON forms are inverse, and both ways of writing agree.** A value comes back from
its JSON form exactly if it is plain; in every other value objects and numbers off the line have become
null, and what has come back has the same form again. A JSON value comes back from the value that it is
read as exactly if its numbers are such as values have. What is written of a value, be it the text
without spaces, the text over several lines or the JSON value, is what is written of its form, and
members that are in key order stay so. -/
theorem json_forms_agree (v : Value) :
    (ofJson v.toJson = v ↔ v.Plain) ∧
      ofJson v.toJson = v.withNulls ∧
      (ofJson v.toJson).toJson = v.toJson ∧
      (∀ j : Json, (ofJson j).toJson = j ↔ j.InRange) ∧
      (∀ (α : Type) (writer : Json.Writer α), writer.OfJson →
        v.write writer = v.toJson.write writer) ∧
      v.write .compact = v.toJson.compact ∧
      (∀ depth, v.write .pretty depth = v.toJson.prettyAt depth) ∧
      v.write .value = v.toJson ∧
      (v.Ordered → v.toJson.inKeyOrder = v.toJson) := by
  refine ⟨?_, ofJson_toJson v, (toJson_ofJson_iff _).mpr (inRange_toJson v), toJson_ofJson_iff,
    fun α writer h => write_eq_write_toJson h v, ?_, ?_, ?_, inKeyOrder_toJson v⟩
  · rw [ofJson_toJson, withNulls_eq_iff]
  · rw [write_eq_write_toJson Json.Writer.ofJson_compact, Json.write_compact]
  · intro depth
    rw [write_eq_write_toJson Json.Writer.ofJson_pretty, Json.write_pretty]
  · rw [write_eq_write_toJson Json.Writer.ofJson_value, Json.write_value _ (inRange_toJson v)]

/-- A map of a list with a whole number, a floating-point one of the same size and one off the line, and
of a map with an object under the empty key and the least whole number: only the object and the number
off the line are lost. -/
theorem json_forms_agree_nested :
    let entries (nan object : Value) : Value := .map [
      ("a", .list [.int 1, .float (.ofInt 1), nan]),
      ("b", .map [("", object), ("x", .int (-9223372036854775808))])]
    let v := entries (.float .nan) (.object 0 fun _ => none)
    v.Ordered ∧ ¬v.Plain ∧ (entries .null .null).Plain ∧
      ofJson v.toJson = entries .null .null ∧
      ofJson (entries .null .null).toJson = entries .null .null ∧
      v.write .compact = v.toJson.write .compact ∧
      v.write .compact =
        "\x7b\"a\":[1,1.0,null],\"b\":\x7b\"\":null,\"x\":-9223372036854775808\x7d\x7d" ∧
      v.toJson.inKeyOrder = v.toJson := by
  intro entries v
  have hordered : v.Ordered :=
    ⟨List.pairwise_pair.mpr (by decide), ⟨trivial, trivial, trivial, trivial⟩,
      ⟨List.pairwise_pair.mpr (by decide), trivial, trivial, trivial⟩, trivial⟩
  have hone : (Binary64.ofInt 1).isFinite = true := by decide +kernel
  have hplain : (entries .null .null).Plain :=
    ⟨⟨trivial, hone, trivial, trivial⟩, ⟨trivial, trivial, trivial⟩, trivial⟩
  have hnot : ¬v.Plain := fun h => nomatch h.1.2.2.1
  have hnulls : v.withNulls = (entries .null .null).withNulls := rfl
  obtain ⟨-, hback, -, -, hwrite, hcompact, -, -, horder⟩ := json_forms_agree v
  obtain ⟨hsame, -⟩ := json_forms_agree (entries .null .null)
  rw [hnulls, (withNulls_eq_iff _).mpr hplain] at hback
  refine ⟨hordered, hnot, hplain, hback, hsame.mpr hplain,
    hwrite String .compact Json.Writer.ofJson_compact, ?_, horder hordered⟩
  rw [hcompact]
  decide +kernel

end Value

end AccessRules
