import AccessRules.Permission.Decision
import AccessRules.Schema.FieldType
import AccessRules.Sql.Filter

/-!
# Collections

A collection has a name, fields and a rule set. Every new collection starts with the three system
fields; adding a field replaces the one of the same name in its place, or else appends it.
-/

namespace AccessRules.Schema

open Rule

/-- A field of a collection. -/
structure Field where
  name : String
  type : FieldType
  required : Bool
  system : Bool
deriving DecidableEq, Repr

namespace Field

/-- The names of the fields that every collection has. -/
def systemNames : List String := ["id", "created", "updated"]

/-- Whether a name is that of a system field. -/
def isSystemName (name : String) : Bool :=
  systemNames.contains name

/-- The fields that every collection has. -/
def systemFields : List Field :=
  [⟨"id", .string, true, true⟩, ⟨"created", .timestamp, true, true⟩,
    ⟨"updated", .timestamp, true, true⟩]

/-- A field as JSON: the members of its type stand among its own. -/
def toJson (f : Field) : Json :=
  .object ([("name", .string f.name)] ++ f.type.members ++
    [("required", .bool f.required), ("system", .bool f.system)])

/-- The value of a truth value that may be left out, and then is false; none if it comes twice or
is something else. -/
def flag? (key : String) (members : List (String × Json)) : Option Bool :=
  match members.filter fun m => m.1 = key with
  | [] => some false
  | [(_, .bool b)] => some b
  | _ => none

/-- Reads a field. -/
def ofJson? : Json → Option Field
  | .object members =>
    let others := members.filter fun m => !(["name", "required", "system"].contains m.1)
    match FieldType.onlyMember? "name" members, FieldType.ofJson? true (.object others),
      flag? "required" members, flag? "system" members with
    | some (.string name), some type, some required, some system =>
      some ⟨name, type, required, system⟩
    | _, _, _, _ => none
  | _ => none

end Field

/-- A collection. -/
structure Collection where
  name : String
  fields : List Field
  rules : RuleSet
deriving DecidableEq, Repr

namespace Collection

/-- A collection with the system fields only. -/
def new (name : String) : Collection :=
  ⟨name, Field.systemFields, .empty⟩

/-- Puts a field in the place of the first one of its name, or at the end. -/
def placeField (field : Field) : List Field → List Field
  | [] => [field]
  | f :: fs => if f.name = field.name then field :: fs else f :: placeField field fs

/-- Adds a field. -/
def addField (c : Collection) (field : Field) : Collection :=
  { c with fields := placeField field c.fields }

/-- The field of a name. -/
def findField? (c : Collection) (name : String) : Option Field :=
  c.fields.find? fun f => f.name = name

/-- The names that a rule of the collection may use. -/
def fieldNames (c : Collection) : List String :=
  c.fields.map Field.name

/-- The operations whose rules do not fit the collection. -/
def failures (c : Collection) : List (Operation × Error) :=
  c.rules.failures c.fieldNames

/-- Decides about a request. -/
def authorize (c : Collection) (operation : Operation) (context : Context) (hour : Hour) :
    Except Error Decision :=
  c.rules.decide operation context hour

/-- The filter of the rows that an operation may reach. -/
def filter (c : Collection) (operation : Operation) (auth : Sql.Auth) : Except Error Sql.Filter :=
  Sql.Filter.ofGuard auth (c.rules.guard operation)

/-- A collection as JSON. -/
def toJson (c : Collection) : Json :=
  .object [("name", .string c.name), ("fields", .array (c.fields.map Field.toJson)),
    ("rules", c.rules.toJson)]

/-- Reads the fields of a collection, each of which may nest so many levels. -/
def fieldsOfDocument? (levels : Nat) : Json.Document → Option (List Field)
  | .array items => items.mapM fun item => (item.toJson? levels).bind Field.ofJson?
  | _ => none

/-- What has been read of a collection. -/
structure Partial where
  name : Option String
  fields : Option (List Field)
  rules : Option RuleSet

/-- Reads the members of an object one by one; a known one may not come twice, and the others are
skipped. -/
def ofMembers? (levels : Nat) (p : Partial) : List (Option String × Json.Document) → Option Partial
  | [] => some p
  | (none, _) :: _ => none
  | (some "name", document) :: members =>
    match p.name, document with
    | none, .string (some name) => ofMembers? levels { p with name := some name } members
    | _, _ => none
  | (some "fields", document) :: members =>
    match p.fields, fieldsOfDocument? levels document with
    | none, some fields => ofMembers? levels { p with fields := some fields } members
    | _, _ => none
  | (some "rules", document) :: members =>
    match p.rules, RuleSet.ofDocument? document with
    | none, some rules => ofMembers? levels { p with rules := some rules } members
    | _, _ => none
  | _ :: members => ofMembers? levels p members

/-- Reads a collection: an object, in which the rules may be left out, or an array of the same
parts. The fields may nest so many levels. -/
def ofDocument? (levels : Nat) : Json.Document → Option Collection
  | .object members =>
    match ofMembers? levels ⟨none, none, none⟩ members with
    | some ⟨some name, some fields, rules⟩ => some ⟨name, fields, rules.getD .empty⟩
    | _ => none
  | .array [.string (some name), fields] =>
    (fieldsOfDocument? levels fields).map fun fields => ⟨name, fields, .empty⟩
  | .array [.string (some name), fields, rules] =>
    match fieldsOfDocument? levels fields, RuleSet.ofDocument? rules with
    | some fields, some rules => some ⟨name, fields, rules⟩
    | _, _ => none
  | _ => none

/-- Reads a collection from a JSON value, which may nest as deep as it does. -/
def ofJson? (j : Json) : Option Collection :=
  ofDocument? j.depth j.toDocument

/-- Reads a collection from a whole JSON text, in which the fields stand two levels deep. -/
def read? (text : String) : Option Collection :=
  (Json.Document.read? text).bind (ofDocument? (Json.maxNesting - 2))

end Collection

end AccessRules.Schema
