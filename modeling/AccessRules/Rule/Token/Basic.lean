import AccessRules.Number.NumberText
import AccessRules.Text.Quoted

/-!
# Tokens of the rule language

A rule is a row of tokens. A path such as `user.id` and the name of a macro such as `@has_role`
are single names; the words `and`, `or`, `not`, `in`, `true`, `false` and `null` are reserved.
-/

namespace AccessRules.Rule

open Number

/-- The operators that compare two operands; `member` is written `in`. -/
inductive Comparison
  | eq
  | ne
  | lt
  | gt
  | le
  | ge
  | member
deriving DecidableEq, Repr

/-- The operators that join two conditions. -/
inductive Connective
  | and
  | or
deriving DecidableEq, Repr

/-- The sign of a comparison. -/
def Comparison.sign : Comparison → String
  | .eq => "=="
  | .ne => "!="
  | .lt => "<"
  | .gt => ">"
  | .le => "<="
  | .ge => ">="
  | .member => "in"

/-- The word of a connective. -/
def Connective.word : Connective → String
  | .and => "and"
  | .or => "or"

/-- What a token is. -/
inductive TokenKind
  | integer (i : Int64)
  | float (x : Binary64)
  | string (s : String)
  | boolean (b : Bool)
  | null
  | name (text : String)
  | comparison (op : Comparison)
  | connective (op : Connective)
  | not
  | leftParen
  | rightParen
  | leftBracket
  | rightBracket
  | comma
  | eof
deriving DecidableEq

/-- A token and the place of its first character in the text, counted from zero. -/
structure Token where
  kind : TokenKind
  position : Nat
deriving DecidableEq

namespace TokenKind

/-- The token of a reserved word. -/
def ofWord? (word : String) : Option TokenKind :=
  match word with
  | "true" => some (.boolean true)
  | "false" => some (.boolean false)
  | "null" => some .null
  | "and" => some (.connective .and)
  | "or" => some (.connective .or)
  | "not" => some .not
  | "in" => some (.comparison .member)
  | _ => none

/-- The text of a token in messages. -/
def text : TokenKind → String
  | .integer i => toString i.toInt
  | .float x => NumberText.message.text x
  | .string s => Text.quoted s
  | .boolean b => if b then "true" else "false"
  | .null => "null"
  | .name text => text
  | .comparison op => op.sign
  | .connective op => op.word
  | .not => "not"
  | .leftParen => "("
  | .rightParen => ")"
  | .leftBracket => "["
  | .rightBracket => "]"
  | .comma => ","
  | .eof => "end of input"

end TokenKind

end AccessRules.Rule
