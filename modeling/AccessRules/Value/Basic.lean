import AccessRules.Dict
import AccessRules.Number.Binary64

/-!
# Dynamic values

The data that a rule is decided on: what a caller knows about the user, the record and the
request, and what is bound to the parameters of a query. An object is data that is only known
through its attributes; it has an identity, and whoever holds the same object twice holds equal
values.
-/

namespace AccessRules

open Number

/-- A dynamic value. -/
inductive Value
  | null
  | bool (b : Bool)
  | int (i : Int64)
  | float (x : Binary64)
  | string (s : String)
  | list (items : List Value)
  | map (entries : List (String × Value))
  | object (identity : Nat) (attributes : String → Option Value)

namespace Value

instance : Inhabited Value := ⟨.null⟩

/-- Whether the value is null. -/
def isNull : Value → Bool
  | .null => true
  | _ => false

/-- The name of a value's type in messages. -/
def typeName : Value → String
  | .null => "null"
  | .bool _ => "boolean"
  | .int _ => "int"
  | .float _ => "float"
  | .string _ => "string"
  | .list _ => "list"
  | .map _ => "map"
  | .object .. => "object"

/-- The text of a string value. -/
def string? : Value → Option String
  | .string s => some s
  | _ => none

/-- The number that a numeric value stands for, whole numbers rounded to the nearest
floating-point one. -/
def number? : Value → Option Binary64
  | .int i => some (.ofInt i.toInt)
  | .float x => some x
  | _ => none

/-- Whether a value counts as true: null, false, zero, and empty texts and containers do not. -/
def isTruthy : Value → Bool
  | .null => false
  | .bool b => b
  | .int i => i != 0
  | .float x => !x.isZero
  | .string s => !s.isEmpty
  | .list items => !items.isEmpty
  | .map entries => !entries.isEmpty
  | .object .. => true

/-- The member of a map or an object; null if there is none, and for every other value. -/
def member (value : Value) (name : String) : Value :=
  match value with
  | .map entries => (Dict.find? entries name).getD .null
  | .object _ attributes => (attributes name).getD .null
  | _ => .null

end Value

end AccessRules
