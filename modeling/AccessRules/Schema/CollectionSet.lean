import AccessRules.Schema.Collection

/-!
# Sets of collections

Collections are kept by name. A set is whole when every relation refers to a collection in it.
-/

namespace AccessRules.Schema

open Rule

/-- Collections by name. -/
structure CollectionSet where
  collections : Dict Collection

namespace CollectionSet

/-- No collection. -/
def empty : CollectionSet := ⟨[]⟩

/-- Adds a collection, unless its name is taken. -/
def insert (s : CollectionSet) (c : Collection) : Except Error CollectionSet :=
  if s.collections.contains c.name then .error (.duplicateCollection c.name)
  else .ok ⟨s.collections.insert c.name c⟩

/-- The collection of a name. -/
def get? (s : CollectionSet) (name : String) : Option Collection :=
  s.collections.find? name

/-- The names, in order. -/
def names (s : CollectionSet) : List String :=
  s.collections.keys

/-- The number of collections. -/
def size (s : CollectionSet) : Nat :=
  s.collections.length

/-- A relation to a collection that is not in the set. -/
structure BrokenRelation where
  collection : String
  field : String
  target : String
deriving DecidableEq, Repr

/-- The relations of a collection that lead out of the set. -/
def brokenRelationsOf (s : CollectionSet) (c : Collection) : List BrokenRelation :=
  c.fields.filterMap fun f =>
    match f.type.relationTarget? with
    | some target => if s.collections.contains target then none else some ⟨c.name, f.name, target⟩
    | none => none

/-- The relations that lead out of the set, by collection and field. -/
def brokenRelations (s : CollectionSet) : List BrokenRelation :=
  s.collections.values.flatMap s.brokenRelationsOf

/-- The rules that do not fit their collections. -/
def failures (s : CollectionSet) : List (String × Operation × Error) :=
  s.collections.values.flatMap fun c => c.failures.map fun (operation, e) => (c.name, operation, e)

/-- Adds collections one by one. -/
def insertAll (s : CollectionSet) : List Collection → Except Error CollectionSet
  | [] => .ok s
  | c :: cs =>
    match s.insert c with
    | .error e => .error e
    | .ok s => insertAll s cs

/-- The set of some collections, which must have different names and refer to each other only. -/
def ofCollections (cs : List Collection) : Except Error CollectionSet :=
  match empty.insertAll cs with
  | .error e => .error e
  | .ok s =>
    match s.brokenRelations with
    | [] => .ok s
    | r :: _ => .error (.unknownCollection r.collection r.field r.target)

/-- A set as JSON. -/
def toJson (s : CollectionSet) : Json :=
  .object [("collections", .object (s.collections.map fun (name, c) => (name, c.toJson)))]

end CollectionSet

end AccessRules.Schema
