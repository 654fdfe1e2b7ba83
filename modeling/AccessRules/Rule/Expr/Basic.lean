import AccessRules.Json.Basic
import AccessRules.Rule.Token.Basic
import AccessRules.Value.Basic

/-!
# Rules as trees

A rule is a tree of conditions over constants, variables and calls. `Expr.text` writes it in
canonical form, with parentheses around every operator, and `Expr.toJson` as data. `Expr.same`
compares two trees with numbers compared as numbers.
-/

namespace AccessRules.Rule

open Number

/-- A constant. -/
inductive Literal
  | null
  | bool (b : Bool)
  | int (i : Int64)
  | float (x : Binary64)
  | string (s : String)
  | list (items : List Literal)
deriving Inhabited

/-- A rule. -/
inductive Expr
  | literal (value : Literal)
  /-- What a path leads to. -/
  | path (name : String)
  | comparison (op : Comparison) (left right : Expr)
  | connective (op : Connective) (left right : Expr)
  | not (operand : Expr)
  /-- A function or macro applied to arguments. -/
  | call (name : String) (args : List Expr)
deriving Inhabited

namespace Literal

mutual

/-- The value of a constant. -/
def toValue : Literal → Value
  | .null => .null
  | .bool b => .bool b
  | .int i => .int i
  | .float x => .float x
  | .string s => .string s
  | .list items => .list (itemsToValues items)

/-- The values of the items of a list. -/
def itemsToValues : List Literal → List Value
  | [] => []
  | item :: items => toValue item :: itemsToValues items

end

/-- The quote that a string is written between: a single one if it holds a double one. A string
with both kinds has no text that reads back. -/
def quoteFor (s : String) : String :=
  if s.toList.contains '"' then "'" else "\""

mutual

/-- The text of a constant. -/
def text : Literal → String
  | .null => "null"
  | .bool b => if b then "true" else "false"
  | .int i => toString i.toInt
  | .float x => NumberText.rule.text x
  | .string s => quoteFor s ++ s ++ quoteFor s
  | .list items => "[" ++ itemsText items ++ "]"

/-- The texts of the items of a list, separated by commas. -/
def itemsText : List Literal → String
  | [] => ""
  | [item] => text item
  | item :: items => text item ++ ", " ++ itemsText items

end

mutual

/-- The JSON form of a constant. -/
def toJson : Literal → Json
  | .null => .null
  | .bool b => .bool b
  | .int i => .int i.toInt
  | .float x => .float x
  | .string s => .string s
  | .list items => .array (itemsToJson items)

/-- The JSON forms of the items of a list. -/
def itemsToJson : List Literal → List Json
  | [] => []
  | item :: items => toJson item :: itemsToJson items

end

mutual

/-- Whether two constants are the same, numbers compared as numbers. -/
def same : Literal → Literal → Bool
  | .null, .null => true
  | .bool a, .bool b => a == b
  | .int a, .int b => a == b
  | .float x, .float y => x.same y
  | .string s, .string t => s == t
  | .list xs, .list ys => sameItems xs ys
  | _, _ => false

/-- Whether two lists have the same items. -/
def sameItems : List Literal → List Literal → Bool
  | [], [] => true
  | x :: xs, y :: ys => same x y && sameItems xs ys
  | _, _ => false

end

end Literal

/-- The name of a comparison as data. -/
def Comparison.code : Comparison → String
  | .eq => "eq"
  | .ne => "ne"
  | .lt => "lt"
  | .gt => "gt"
  | .le => "le"
  | .ge => "ge"
  | .member => "in"

namespace Expr

mutual

/-- The canonical text of a rule. -/
def text : Expr → String
  | .literal value => value.text
  | .path name => name
  | .comparison op left right => "(" ++ text left ++ " " ++ op.sign ++ " " ++ text right ++ ")"
  | .connective op left right => "(" ++ text left ++ " " ++ op.word ++ " " ++ text right ++ ")"
  | .not operand => "(not " ++ text operand ++ ")"
  | .call name args => name ++ "(" ++ argsText args ++ ")"

/-- The texts of arguments, separated by commas. -/
def argsText : List Expr → String
  | [] => ""
  | [arg] => text arg
  | arg :: args => text arg ++ ", " ++ argsText args

end

/-- The data of an operator with two operands. -/
def binaryJson (op : String) (left right : Json) : Json :=
  .object [("binary_op", .object [("left", left), ("op", .string op), ("right", right)])]

mutual

/-- A rule as data. -/
def toJson : Expr → Json
  | .literal value => .object [("literal", value.toJson)]
  | .path name => .object [("variable", .string name)]
  | .comparison op left right => binaryJson op.code (toJson left) (toJson right)
  | .connective op left right => binaryJson op.word (toJson left) (toJson right)
  | .not operand =>
    .object [("unary_op", .object [("op", .string "not"), ("operand", toJson operand)])]
  | .call name args =>
    .object [("function_call",
      .object [("name", .string name), ("args", .array (argsToJson args))])]

/-- Arguments as data. -/
def argsToJson : List Expr → List Json
  | [] => []
  | arg :: args => toJson arg :: argsToJson args

end

mutual

/-- Whether two rules are the same tree, numbers compared as numbers. -/
def same : Expr → Expr → Bool
  | .literal a, .literal b => a.same b
  | .path m, .path n => m == n
  | .comparison p a b, .comparison q c d => p == q && same a c && same b d
  | .connective p a b, .connective q c d => p == q && same a c && same b d
  | .not a, .not b => same a b
  | .call m xs, .call n ys => m == n && sameArgs xs ys
  | _, _ => false

/-- Whether two rows of arguments are the same. -/
def sameArgs : List Expr → List Expr → Bool
  | [], [] => true
  | x :: xs, y :: ys => same x y && sameArgs xs ys
  | _, _ => false

end

end Expr

end AccessRules.Rule
