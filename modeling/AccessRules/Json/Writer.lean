import AccessRules.Json.Basic

/-!
# Writing data down

Whatever is written down goes through a writer, which says what becomes of each kind of data. Three
writers write JSON: the text without spaces, the text over several lines, and the JSON value itself.
None of them tells missing data from null, and each writes a number off the line as null.
-/

namespace AccessRules.Json

/-- What becomes of each kind of data that is written down. -/
structure Writer (α : Type) where
  null : α
  /-- Data that is missing. -/
  missing : α
  bool : Bool → α
  int : Int → α
  float : Number.Binary64 → α
  string : String → α
  list : List α → α
  map : List (String × α) → α

namespace Writer

/-- Writes the text without spaces. -/
def compact : Writer String where
  null := "null"
  missing := "null"
  bool b := if b then "true" else "false"
  int i := toString i
  float := floatText
  string := stringText
  list items := "[" ++ ",".intercalate items ++ "]"
  map entries :=
    "\x7b" ++ ",".intercalate (entries.map fun entry => stringText entry.1 ++ ":" ++ entry.2) ++ "\x7d"

/-- Writes the text over several lines, at a depth of nesting. -/
def pretty : Writer (Nat → String) where
  null _ := "null"
  missing _ := "null"
  bool b _ := if b then "true" else "false"
  int i _ := toString i
  float x _ := floatText x
  string s _ := stringText s
  list items depth :=
    if items.isEmpty then "[]"
    else "[" ++ ",".intercalate (items.map fun item => newLine (depth + 1) ++ item (depth + 1)) ++
      newLine depth ++ "]"
  map entries depth :=
    if entries.isEmpty then "\x7b\x7d"
    else "\x7b" ++ ",".intercalate (entries.map fun entry =>
        newLine (depth + 1) ++ stringText entry.1 ++ ": " ++ entry.2 (depth + 1)) ++
      newLine depth ++ "\x7d"

/-- Writes the JSON value. -/
def value : Writer Json where
  null := .null
  missing := .null
  bool := .bool
  int := .int
  float x := if x.isFinite then .float x else .null
  string := .string
  list := .array
  map := .object

end Writer

end AccessRules.Json
