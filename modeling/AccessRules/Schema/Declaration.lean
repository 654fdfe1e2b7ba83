import AccessRules.Schema.CollectionSet

/-!
# Declarations of collections

A schema text declares collections by name, and in each of them fields by name and rules. A
declared field says its type in words; `FieldDeclaration.toField` finds the type that is meant.
A collection gets the three system fields and behind them the declared ones in the order of their
names. No field may be declared under the name of a system field.
-/

namespace AccessRules.Schema

/-- What is said about a field. -/
structure FieldDeclaration where
  type : Option String
  required : Option Bool
  items : Option String
  collection : Option String
deriving DecidableEq, Repr

namespace FieldDeclaration

/-- A field of which only the type is said. -/
def ofType (type : String) : FieldDeclaration :=
  ⟨some type, none, none, none⟩

/-- The type that a declaration means. Both a field and the items of a list are texts unless
something else is said; the items of a list have no parts. -/
def fieldType (f : FieldDeclaration) (name : String) : Except Error FieldType :=
  let typeName := f.type.getD "string"
  match FieldType.ofSimpleName? typeName with
  | some type => .ok type
  | none =>
    if typeName = "list" then
      let items := f.items.getD "string"
      match FieldType.ofSimpleName? items with
      | some type => .ok (.list type)
      | none => .error (.invalidFieldType items)
    else if typeName = "relation" then
      match f.collection with
      | some collection => .ok (.relation collection)
      | none => .error (.relationWithoutCollection name)
    else .error (.invalidFieldType typeName)

/-- The declared field. -/
def toField (f : FieldDeclaration) (name : String) : Except Error Field :=
  (f.fieldType name).map fun type => ⟨name, type, f.required.getD false, false⟩

end FieldDeclaration

/-- What is said about a collection. -/
structure CollectionDeclaration where
  fields : Dict FieldDeclaration
  rules : RuleSet
deriving DecidableEq, Repr

namespace CollectionDeclaration

/-- Adds declared fields one by one. -/
def addFields (c : Collection) : List (String × FieldDeclaration) → Except Error Collection
  | [] => .ok c
  | (name, f) :: fs =>
    if Field.isSystemName name then .error (.reservedField c.name name)
    else match f.toField name with
      | .error e => .error e
      | .ok field => addFields (c.addField field) fs

/-- The declared collection. -/
def toCollection (d : CollectionDeclaration) (name : String) : Except Error Collection :=
  (addFields (.new name) d.fields).map fun c => { c with rules := d.rules }

end CollectionDeclaration

/-- A whole schema text. -/
structure Declaration where
  version : Nat
  collections : Dict CollectionDeclaration
deriving DecidableEq, Repr

namespace Declaration

/-- The version of the schema language, which is also meant where none is given. -/
def supportedVersion : Nat := 1

/-- The declared collections, in the order of their names. -/
def toCollections (d : Declaration) : Except Error (List Collection) :=
  if d.version ≠ supportedVersion then .error (.unsupportedVersion d.version)
  else d.collections.mapM fun (name, c) => c.toCollection name

end Declaration

end AccessRules.Schema
