import AccessRules.Schema.Declaration
import AccessRules.Yaml.Data

/-!
# Reading declarations

A schema is written in YAML. Where a mapping is wanted nothing may stand instead, and means an
empty one. Keys and rules are taken as they are written, whatever else they could mean; of two
collections or fields with one name the later one counts, but a part of the schema language may
stand only once. Other keys are skipped.
-/

namespace AccessRules.Schema

open Yaml

/-- The entries of a mapping with texts as keys. -/
abbrev Entries := List (String × Node)

namespace Entries

/-- The text of a scalar, as it is written. -/
def text? (d : Document) (node : Node) : Option String :=
  match d.follow node with
  | .scalar _ _ text => some text
  | _ => none

/-- The entries of a mapping, of which every key is a scalar. -/
def ofNode? (d : Document) (node : Node) : Option Entries :=
  match d.follow node with
  | .mapping _ entries =>
    entries.mapM fun (key, value) => (text? d key).map fun key => (key, value)
  | .scalar _ .plain "" => some []
  | _ => none

/-- What stands under a key and what `read` makes of it, or the given value if nothing does. -/
def part? {α : Type} (entries : Entries) (key : String) (missing : α) (read : Node → Option α) :
    Option α :=
  match entries.filter fun e => e.1 = key with
  | [] => some missing
  | [(_, node)] => read node
  | _ => none

/-- All entries, by key. -/
def dict? {α : Type} (entries : Entries) (read : Node → Option α) : Option (Dict α) :=
  (List.mapM (fun e : String × Node => (read e.2).map fun value => (e.1, value)) entries).map
    Dict.ofList

end Entries

/-- The optional text that a rule is written as: nothing and a plain null are none. -/
def ruleText? (d : Document) (node : Node) : Option (Option String) :=
  match d.follow node with
  | .scalar none .plain text =>
    some (if text = "" || isNullWord text then none else some text)
  | .scalar (some tag) .plain text =>
    if tag = coreTag "null" then if isNullWord text then some none else none
    else some (some text)
  | .scalar _ _ text => some (some text)
  | _ => none

/-- Reads a rule set. -/
def ruleSet? (d : Document) (node : Node) : Option RuleSet :=
  (Entries.ofNode? d node).bind fun entries =>
    Operation.all.foldlM (fun rules operation =>
      (entries.part? operation.name none (ruleText? d)).map fun rule => rules.set operation rule)
      .empty

namespace FieldDeclaration

/-- The parts of a field, in the order in which they stand in a list. -/
def partNames : List String := ["type", "required", "items", "collection"]

/-- The part that a key means: parts have names and numbers. -/
def partName? : Data → Option String
  | .string name => some name
  | .natural n => some (partNames.getD n "")
  | _ => none

/-- A text that may be null. -/
def textOf? : Data → Option (Option String)
  | .null => some none
  | .string s => some (some s)
  | _ => none

/-- A truth value that may be null. -/
def flagOf? : Data → Option (Option Bool)
  | .null => some none
  | .bool b => some (some b)
  | _ => none

/-- The declaration with the given parts. -/
def ofParts? (type required items collection : Data) : Option FieldDeclaration :=
  match textOf? type, flagOf? required, textOf? items, textOf? collection with
  | some type, some required, some items, some collection =>
    some ⟨type, required, items, collection⟩
  | _, _, _, _ => none

/-- The part of a name, null if it is missing. -/
def part? (parts : List (String × Data)) (name : String) : Option Data :=
  match parts.filter fun p => p.1 = name with
  | [] => some .null
  | [(_, value)] => some value
  | _ => none

/-- Reads a field: its type alone, a list of its four parts, or a mapping. -/
def ofData? : Data → Option FieldDeclaration
  | .string type => some (.ofType type)
  | .list [type, required, items, collection] => ofParts? type required items collection
  | .map entries =>
    match entries.mapM fun (key, value) => (partName? key).map fun name => (name, value) with
    | none => none
    | some parts =>
      match part? parts "type", part? parts "required", part? parts "items",
        part? parts "collection" with
      | some type, some required, some items, some collection =>
        ofParts? type required items collection
      | _, _, _, _ => none
  | _ => none

/-- Reads a field. It stands four mappings deep. -/
def ofNode? (d : Document) (node : Node) : Option FieldDeclaration :=
  (Data.ofNode? d (maxNesting - 4) node).bind ofData?

end FieldDeclaration

/-- Reads a collection. -/
def CollectionDeclaration.ofNode? (d : Document) (node : Node) : Option CollectionDeclaration :=
  match Entries.ofNode? d node with
  | none => none
  | some entries =>
    let fields := entries.part? "fields" Dict.empty fun node =>
      (Entries.ofNode? d node).bind fun fields => fields.dict? (FieldDeclaration.ofNode? d)
    match fields, entries.part? "rules" .empty (ruleSet? d) with
    | some fields, some rules => some ⟨fields, rules⟩
    | _, _ => none

namespace Declaration

/-- Reads a version: a whole number of 32 bits, written plain, or as a block with its tag. -/
def version? (d : Document) (node : Node) : Option Nat :=
  let ofText (text : String) : Option Nat :=
    match integer? text with
    | some (some (.natural n)) => if n < Nat.pow 2 32 then some n else none
    | _ => none
  match d.follow node with
  | .scalar _ .plain text => ofText text
  | .scalar tag .literal text => if tag = some (coreTag "int") then ofText text else none
  | _ => none

/-- Reads a schema. -/
def ofDocument? (d : Document) : Option Declaration :=
  match Entries.ofNode? d d.root with
  | none => none
  | some entries =>
    let collections := entries.part? "collections" Dict.empty fun node =>
      (Entries.ofNode? d node).bind fun cs => cs.dict? (CollectionDeclaration.ofNode? d)
    match entries.part? "version" supportedVersion (version? d), collections with
    | some version, some collections => some ⟨version, collections⟩
    | _, _ => none

/-- Reads a schema text. -/
def read? (text : String) : Option Declaration :=
  (Document.read? text).bind ofDocument?

end Declaration

/-- The collections that a schema text declares. -/
def readCollections (text : String) : Except Error (List Collection) :=
  match Declaration.read? text with
  | none => .error .yaml
  | some d => d.toCollections

/-- The set of the collections that some schema texts declare together. -/
def CollectionSet.ofTexts (texts : List String) : Except Error CollectionSet :=
  match texts.mapM readCollections with
  | .error e => .error e
  | .ok collections => ofCollections collections.flatten

end AccessRules.Schema
