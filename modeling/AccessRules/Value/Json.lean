import AccessRules.Json.Document
import AccessRules.Json.Writer
import AccessRules.Value.Basic

/-!
# Values as JSON

Every value has a JSON form, in which objects and the numbers off the line are null, and every
JSON value is read as a value. A whole number that does not fit 64 bits with a sign becomes a
floating-point one. A value is also written down as it is, part by part, without its JSON form being
made first.
-/

namespace AccessRules

namespace Value

mutual

/-- The JSON form of a value. -/
def toJson : Value → Json
  | .null => .null
  | .bool b => .bool b
  | .int i => .int i.toInt
  | .float x => if x.isFinite then .float x else .null
  | .string s => .string s
  | .list items => .array (itemsToJson items)
  | .map entries => .object (entriesToJson entries)
  | .object .. => .null

/-- The JSON forms of the items of a list. -/
def itemsToJson : List Value → List Json
  | [] => []
  | item :: items => toJson item :: itemsToJson items

/-- The JSON forms of the entries of a map. -/
def entriesToJson : List (String × Value) → List (String × Json)
  | [] => []
  | (key, value) :: entries => (key, toJson value) :: entriesToJson entries

end

mutual

/-- Writes a value down. What is in an object cannot be listed, so it is written as missing, as null
is. -/
def write {α : Type} (writer : Json.Writer α) : Value → α
  | .null => writer.missing
  | .bool b => writer.bool b
  | .int i => writer.int i.toInt
  | .float x => writer.float x
  | .string s => writer.string s
  | .list items => writer.list (writeItems writer items)
  | .map entries => writer.map (writeEntries writer entries)
  | .object .. => writer.missing

/-- Writes the items of a list down. -/
def writeItems {α : Type} (writer : Json.Writer α) : List Value → List α
  | [] => []
  | item :: items => write writer item :: writeItems writer items

/-- Writes the entries of a map down. -/
def writeEntries {α : Type} (writer : Json.Writer α) : List (String × Value) → List (String × α)
  | [] => []
  | (key, value) :: entries => (key, write writer value) :: writeEntries writer entries

end

mutual

/-- The value of a JSON value. -/
def ofJson : Json → Value
  | .null => .null
  | .bool b => .bool b
  | .int i =>
    if -(Nat.pow 2 63 : Nat) ≤ i && i < (Nat.pow 2 63 : Nat) then .int (Int64.ofInt i)
    else .float (Number.Binary64.ofInt i)
  | .float x => .float x
  | .string s => .string s
  | .array items => .list (itemsOfJson items)
  | .object members => .map (membersOfJson members)

/-- The values of the items of an array. -/
def itemsOfJson : List Json → List Value
  | [] => []
  | item :: items => ofJson item :: itemsOfJson items

/-- The values of the members of an object. -/
def membersOfJson : List (String × Json) → List (String × Value)
  | [] => []
  | (key, item) :: members => (key, ofJson item) :: membersOfJson members

end

/-- The text of a value in messages: a string is its own text, an object is a placeholder, and
every other value is its JSON text. -/
def text : Value → String
  | .string s => s
  | .object .. => "<object>"
  | value => value.toJson.compact

/-- The value that a JSON text stands for, if it is one. -/
def ofJsonText? (text : String) : Option Value :=
  (Json.read? text).map ofJson

end Value

end AccessRules
