import AccessRules.Json.Writer

/-!
# Writing JSON values

A JSON value is written down part by part, like any other data. A writer of JSON is one that makes no
difference between what JSON has only one form for (`Writer.OfJson`); the three writers are such, and two
of them write the texts of a JSON value:

> `write_compact`: the text without spaces.
> `write_pretty`: the text over several lines.
-/

namespace AccessRules.Json

mutual

/-- Writes a JSON value down. -/
def write {α : Type} (writer : Writer α) : Json → α
  | .null => writer.null
  | .bool b => writer.bool b
  | .int i => writer.int i
  | .float x => writer.float x
  | .string s => writer.string s
  | .array items => writer.list (writeItems writer items)
  | .object members => writer.map (writeMembers writer members)

/-- Writes the items of an array down. -/
def writeItems {α : Type} (writer : Writer α) : List Json → List α
  | [] => []
  | item :: items => write writer item :: writeItems writer items

/-- Writes the members of an object down. -/
def writeMembers {α : Type} (writer : Writer α) : List (String × Json) → List (String × α)
  | [] => []
  | (key, item) :: members => (key, write writer item) :: writeMembers writer members

end

/-- A writer of JSON: missing data and numbers off the line are written as null is. -/
structure Writer.OfJson {α : Type} (writer : Writer α) : Prop where
  missing_eq : writer.missing = writer.null
  float_eq : ∀ x : Number.Binary64, x.isFinite = false → writer.float x = writer.null

/-- Whatever is not a finite number is written as null, for JSON has no text for it. -/
theorem floatText_of_not_finite {x : Number.Binary64} (h : x.isFinite = false) :
    floatText x = "null" := by
  rw [floatText, h]
  rfl

/-- The compact text of a float is that of the JSON value it becomes. -/
theorem Writer.ofJson_compact : Writer.compact.OfJson where
  missing_eq := rfl
  float_eq _ h := floatText_of_not_finite h

theorem Writer.ofJson_pretty : Writer.pretty.OfJson where
  missing_eq := rfl
  float_eq _ h := funext fun _ => floatText_of_not_finite h

theorem Writer.ofJson_value : Writer.value.OfJson where
  missing_eq := rfl
  float_eq _ h := if_neg (Bool.eq_false_iff.mp h)

/-- Texts that are joined one by one, with a comma between each and the next. -/
theorem eq_intercalate {α : Type} {joined : List α → String} {text : α → String}
    (hnil : joined [] = "") (hone : ∀ part, joined [part] = text part)
    (hmore : ∀ part next parts,
      joined (part :: next :: parts) = text part ++ "," ++ joined (next :: parts))
    (parts : List α) : joined parts = ",".intercalate (parts.map text) := by
  induction parts with
  | nil => exact hnil
  | cons part parts ih =>
    cases parts with
    | nil => exact (hone part).trans String.intercalate_singleton.symm
    | cons next parts =>
      rw [hmore, ih, List.map_cons, List.map_cons, List.map_cons, String.intercalate_cons_cons]

/-! ## The text without spaces -/

/-- The compact items are their texts with commas between them. -/
theorem compactItems_eq_intercalate (items : List Json) :
    compactItems items = ",".intercalate (items.map compact) :=
  eq_intercalate rfl (fun _ => rfl) (fun _ _ _ => rfl) items

theorem compactMembers_eq_intercalate (members : List (String × Json)) :
    compactMembers members =
      ",".intercalate (members.map fun member => stringText member.1 ++ ":" ++ member.2.compact) :=
  eq_intercalate rfl (fun _ => rfl) (fun _ _ _ => rfl) members

mutual

/-- The writer of texts without spaces writes the text of a JSON value. -/
theorem write_compact : (j : Json) → j.write .compact = j.compact
  | .null => rfl
  | .bool _ => rfl
  | .int _ => rfl
  | .float _ => rfl
  | .string _ => rfl
  | .array items => by
    rw [write, compact, compactItems_eq_intercalate, ← writeItems_compact items]
    rfl
  | .object members => by
    rw [write, compact, compactMembers_eq_intercalate, writeMembers_compact members]
    simp [Writer.compact, Function.comp_def]

theorem writeItems_compact : (items : List Json) →
    writeItems .compact items = items.map compact
  | [] => rfl
  | item :: items => by
    rw [writeItems, write_compact item, writeItems_compact items, List.map_cons]

theorem writeMembers_compact : (members : List (String × Json)) →
    writeMembers .compact members = members.map fun member => (member.1, member.2.compact)
  | [] => rfl
  | (key, item) :: members => by
    rw [writeMembers, write_compact item, writeMembers_compact members, List.map_cons]

end

/-! ## The text over several lines -/

/-- The indented items each stand on a line of their own. -/
theorem prettyItems_eq_intercalate (depth : Nat) (items : List Json) :
    prettyItems depth items =
      ",".intercalate (items.map fun item => newLine depth ++ item.prettyAt depth) :=
  eq_intercalate rfl (fun _ => rfl) (fun _ _ _ => rfl) items

theorem prettyMembers_eq_intercalate (depth : Nat) (members : List (String × Json)) :
    prettyMembers depth members = ",".intercalate (members.map fun member =>
      newLine depth ++ stringText member.1 ++ ": " ++ member.2.prettyAt depth) :=
  eq_intercalate rfl (fun _ => rfl) (fun _ _ _ => rfl) members

mutual

/-- The writer of texts over several lines writes the text of a JSON value, at every depth. -/
theorem write_pretty : (j : Json) → (depth : Nat) → j.write .pretty depth = j.prettyAt depth
  | .null, _ => rfl
  | .bool _, _ => rfl
  | .int _, _ => rfl
  | .float _, _ => rfl
  | .string _, _ => rfl
  | .array [], _ => rfl
  | .array (item :: items), depth => by
    rw [write, prettyAt, prettyItems_eq_intercalate, writeItems_pretty (item :: items)]
    · simp [Writer.pretty, Function.comp_def]
    · simp
  | .object [], _ => rfl
  | .object (member :: members), depth => by
    rw [write, prettyAt, prettyMembers_eq_intercalate, writeMembers_pretty (member :: members)]
    · simp [Writer.pretty, Function.comp_def]
    · simp

theorem writeItems_pretty : (items : List Json) →
    writeItems .pretty items = items.map fun item depth => item.prettyAt depth
  | [] => rfl
  | item :: items => by
    rw [writeItems, funext (write_pretty item), writeItems_pretty items, List.map_cons]

theorem writeMembers_pretty : (members : List (String × Json)) →
    writeMembers .pretty members =
      members.map fun member => (member.1, fun depth => member.2.prettyAt depth)
  | [] => rfl
  | (key, item) :: members => by
    rw [writeMembers, funext (write_pretty item), writeMembers_pretty members, List.map_cons]

end

end AccessRules.Json
