import AccessRules.Json.Document

/-!
# Types of fields

A field of a collection holds a scalar, a list or a reference to a record of some collection. A
type is written as a JSON object with its name under `type`, the type of the items of a list under
`items` and the collection of a relation under `collection`. It is also read from an array of the
same parts, and inside a larger object the type may be given by its number.
-/

namespace AccessRules.Schema

/-- The type of a field. -/
inductive FieldType
  | string
  | int
  | float
  | boolean
  | json
  | timestamp
  | list (items : FieldType)
  | relation (collection : String)
deriving DecidableEq, Repr

namespace FieldType

/-- The name of a type. -/
def name : FieldType → String
  | .string => "string"
  | .int => "int"
  | .float => "float"
  | .boolean => "boolean"
  | .json => "json"
  | .timestamp => "timestamp"
  | .list _ => "list"
  | .relation _ => "relation"

/-- The type without parts of a name, some of which have a second name. -/
def ofSimpleName? (name : String) : Option FieldType :=
  match name with
  | "string" | "text" => some .string
  | "int" | "integer" => some .int
  | "float" | "number" => some .float
  | "boolean" | "bool" => some .boolean
  | "json" => some .json
  | "timestamp" | "date" => some .timestamp
  | _ => none

/-- The collection that a field refers to, be it in a list. -/
def relationTarget? : FieldType → Option String
  | .relation collection => some collection
  | .list items => items.relationTarget?
  | _ => none

/-- The members of a type as JSON. -/
def members : FieldType → List (String × Json)
  | .list items => [("type", .string "list"), ("items", .object items.members)]
  | .relation collection => [("type", .string "relation"), ("collection", .string collection)]
  | simple => [("type", .string simple.name)]

/-- A type as JSON. -/
def toJson (t : FieldType) : Json :=
  .object t.members

/-- Which type a name or number stands for, before its parts are known. -/
inductive Tag
  | simple (t : FieldType)
  | list
  | relation

/-- The tags in the order of their numbers. -/
def tags : List (String × Tag) :=
  [("string", .simple .string), ("int", .simple .int), ("float", .simple .float),
    ("boolean", .simple .boolean), ("json", .simple .json), ("timestamp", .simple .timestamp),
    ("list", .list), ("relation", .relation)]

/-- Reads a tag: a name, or a number if numbers are admitted. -/
def readTag? (numbers : Bool) : Json → Option Tag
  | .string name => Dict.find? tags name
  | .int i => if numbers && 0 ≤ i then (tags[i.toNat]?).map Prod.snd else none
  | _ => none

/-- The only value under a key; none if there are two. -/
def onlyMember? (key : String) (members : List (String × Json)) : Option Json :=
  match members.filter fun m => m.1 = key with
  | [(_, value)] => some value
  | _ => none

/-- The size of a JSON value, by which reading the parts of a type ends. -/
theorem sizeOf_onlyMember {key : String} {members : List (String × Json)} {value : Json}
    (h : onlyMember? key members = some value) : sizeOf value < sizeOf members := by
  unfold onlyMember? at h
  split at h
  · next k v heq =>
    cases h
    have hmem : (k, value) ∈ members := by
      have : (k, value) ∈ members.filter fun m => m.1 = key := by simp [heq]
      exact (List.mem_filter.mp this).1
    have := List.sizeOf_lt_of_mem hmem
    simp only [Prod.mk.sizeOf_spec] at this
    omega
  · cases h

/-- Reads a type. -/
def ofJson? (numbers : Bool) : Json → Option FieldType
  | .object members =>
    match (onlyMember? "type" members).bind (readTag? numbers) with
    | none => none
    | some (.simple t) => some t
    | some .list =>
      match _h : onlyMember? "items" members with
      | none => none
      | some items => (ofJson? true items).map .list
    | some .relation =>
      match onlyMember? "collection" members with
      | some (.string collection) => some (.relation collection)
      | _ => none
  | .array [tag] =>
    match readTag? numbers tag with
    | some (.simple t) => some t
    | _ => none
  | .array [tag, part] =>
    match readTag? numbers tag, part with
    | some .list, items => (ofJson? true items).map .list
    | some .relation, .string collection => some (.relation collection)
    | _, _ => none
  | _ => none
termination_by json => sizeOf json
decreasing_by
  · have := sizeOf_onlyMember _h
    simp only [Json.object.sizeOf_spec]
    omega
  · simp only [Json.array.sizeOf_spec, List.cons.sizeOf_spec]
    omega

/-- Reads a type from a whole JSON text. -/
def read? (text : String) : Option FieldType :=
  ((Json.Document.read? text).bind (Json.Document.toJson? Json.maxNesting)).bind (ofJson? false)

end FieldType

end AccessRules.Schema
