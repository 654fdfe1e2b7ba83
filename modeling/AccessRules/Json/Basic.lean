import AccessRules.Number.NumberText

/-!
# JSON values and their texts

A JSON value keeps whole numbers apart from floating-point ones, and the members of an object in
their order. `compact` writes a value without spaces; `pretty` writes it over several lines,
indented by two spaces, with empty arrays and objects closed at once. A number off the line has
no JSON form and is written as `null`.
-/

namespace AccessRules

/-- A JSON value. -/
inductive Json
  | null
  | bool (b : Bool)
  | int (i : Int)
  | float (x : Number.Binary64)
  | string (s : String)
  | array (items : List Json)
  | object (members : List (String × Json))

namespace Json

/-- A hexadecimal digit, in lower case. -/
def hexDigit (n : Nat) : Char :=
  Nat.digitChar (n % 16)

/-- One character inside a JSON string: the quote, the backslash and the controls below the space
are escaped, the five common ones by a letter. -/
def escapedChar (c : Char) : List Char :=
  if c = '"' then ['\\', '"']
  else if c = '\\' then ['\\', '\\']
  else if c = '\n' then ['\\', 'n']
  else if c = '\r' then ['\\', 'r']
  else if c = '\t' then ['\\', 't']
  else if c.toNat = 0x08 then ['\\', 'b']
  else if c.toNat = 0x0C then ['\\', 'f']
  else if c.toNat < 0x20 then ['\\', 'u', '0', '0', hexDigit (c.toNat / 16), hexDigit c.toNat]
  else [c]

/-- The text of a JSON string. -/
def stringText (s : String) : String :=
  String.ofList ('"' :: s.toList.flatMap escapedChar ++ ['"'])

/-- The text of a floating-point number. -/
def floatText (x : Number.Binary64) : String :=
  if x.isFinite then Number.NumberText.json.text x else "null"

mutual

/-- The text of a value without spaces. -/
def compact : Json → String
  | .null => "null"
  | .bool b => if b then "true" else "false"
  | .int i => toString i
  | .float x => floatText x
  | .string s => stringText s
  | .array items => "[" ++ compactItems items ++ "]"
  | .object members => "\x7b" ++ compactMembers members ++ "\x7d"

/-- The items of an array, separated by commas. -/
def compactItems : List Json → String
  | [] => ""
  | [item] => compact item
  | item :: items => compact item ++ "," ++ compactItems items

/-- The members of an object, separated by commas. -/
def compactMembers : List (String × Json) → String
  | [] => ""
  | [(key, item)] => stringText key ++ ":" ++ compact item
  | (key, item) :: members => stringText key ++ ":" ++ compact item ++ "," ++ compactMembers members

end

/-- The start of a line at a depth of nesting. -/
def newLine (depth : Nat) : String :=
  "\n" ++ String.ofList (List.replicate (2 * depth) ' ')

mutual

/-- The text of a value over several lines, at a depth of nesting. -/
def prettyAt (depth : Nat) : Json → String
  | .array [] => "[]"
  | .array items => "[" ++ prettyItems (depth + 1) items ++ newLine depth ++ "]"
  | .object [] => "\x7b\x7d"
  | .object members => "\x7b" ++ prettyMembers (depth + 1) members ++ newLine depth ++ "\x7d"
  | .null => "null"
  | .bool b => if b then "true" else "false"
  | .int i => toString i
  | .float x => floatText x
  | .string s => stringText s

/-- The items of an array, each on a line. -/
def prettyItems (depth : Nat) : List Json → String
  | [] => ""
  | [item] => newLine depth ++ prettyAt depth item
  | item :: items => newLine depth ++ prettyAt depth item ++ "," ++ prettyItems depth items

/-- The members of an object, each on a line. -/
def prettyMembers (depth : Nat) : List (String × Json) → String
  | [] => ""
  | [(key, item)] => newLine depth ++ stringText key ++ ": " ++ prettyAt depth item
  | (key, item) :: members =>
    newLine depth ++ stringText key ++ ": " ++ prettyAt depth item ++ "," ++
      prettyMembers depth members

end

/-- The text of a value over several lines. -/
def pretty (j : Json) : String :=
  prettyAt 0 j

/-- The text of an optional string: null when there is none. -/
def ofText? : Option String → Json
  | none => .null
  | some s => .string s

end Json

end AccessRules
