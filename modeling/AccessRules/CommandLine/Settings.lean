import AccessRules.CommandLine.Invocation
import AccessRules.Json.Document

/-!
# What a user and a directory remember

A user's settings say where the collections are and how answers are written, unless a command
line says so. A directory remembers where its collections are. Both are JSON: an object, whose
other members are skipped, or an array of the parts; null means that nothing is said.
-/

namespace AccessRules.CommandLine

/-- A text or null. -/
def optionalText? : Json.Document → Option (Option String)
  | .null => some none
  | .string (some s) => some (some s)
  | _ => none

/-- A format or null; a format may also be written as an object with null under its name. -/
def optionalFormat? : Json.Document → Option (Option OutputFormat)
  | .null => some none
  | .string (some name) => (OutputFormat.ofName? name).map some
  | .object [(some name, .null)] => (OutputFormat.ofName? name).map some
  | _ => none

/-- The members of an object whose keys all have a text. -/
def namedMembers? (members : List (Option String × Json.Document)) :
    Option (List (String × Json.Document)) :=
  members.mapM fun (key, document) => key.map fun key => (key, document)

/-- What stands under a key, null if nothing does; it may stand there once. -/
def onlyMember? (key : String) (members : List (String × Json.Document)) : Option Json.Document :=
  match members.filter fun m => m.1 = key with
  | [] => some .null
  | [(_, document)] => some document
  | _ => none

/-- What a user remembers. -/
structure Settings where
  collections : Option String
  format : Option OutputFormat
deriving DecidableEq, Repr

namespace Settings

/-- Nothing is said. -/
def empty : Settings := ⟨none, none⟩

/-- The settings with the given parts. -/
def ofParts? (collections format : Json.Document) : Option Settings :=
  match optionalText? collections, optionalFormat? format with
  | some collections, some format => some ⟨collections, format⟩
  | _, _ => none

/-- Reads settings; an array may be shorter. -/
def ofDocument? : Json.Document → Option Settings
  | .object members =>
    (namedMembers? members).bind fun members =>
      match onlyMember? "collections" members, onlyMember? "format" members with
      | some collections, some format => ofParts? collections format
      | _, _ => none
  | .array [] => some empty
  | .array [collections] => ofParts? collections .null
  | .array [collections, format] => ofParts? collections format
  | _ => none

/-- Reads settings from a whole text. -/
def read? (text : String) : Option Settings :=
  (Json.Document.read? text).bind ofDocument?

end Settings

/-- What a directory remembers. -/
structure DirectoryContext where
  collections : Option String
deriving DecidableEq, Repr

namespace DirectoryContext

/-- Nothing is said. -/
def empty : DirectoryContext := ⟨none⟩

/-- The file in which it is kept. -/
def path : String := ".rulekit/context.json"

/-- Reads what is remembered; an array must be full. -/
def ofDocument? : Json.Document → Option DirectoryContext
  | .object members =>
    ((namedMembers? members).bind (onlyMember? "collections")).bind fun collections =>
      (optionalText? collections).map fun collections => ⟨collections⟩
  | .array [collections] => (optionalText? collections).map fun collections => ⟨collections⟩
  | _ => none

/-- Reads what is remembered from a whole text. -/
def read? (text : String) : Option DirectoryContext :=
  (Json.Document.read? text).bind ofDocument?

/-- What is remembered as JSON. -/
def toJson (c : DirectoryContext) : Json :=
  .object (match c.collections with
    | some collections => [("collections", .string collections)]
    | none => [])

/-- What is remembered, for people. -/
def text (c : DirectoryContext) : String :=
  String.join ["Current context (", path, "):\n  collections: ",
    c.collections.getD "(not set)", "\n"]

end DirectoryContext

end AccessRules.CommandLine
