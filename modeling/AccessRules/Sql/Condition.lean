import AccessRules.Rule.Token.Basic

/-!
# SQL conditions

A condition that a database can put behind `WHERE`. Constants and the caller's fields stand in it
as named parameters only, so its text holds nothing but names of columns and parameters and the
words below. A disjunction and a conjunction are written in parentheses, and so is what is negated.
-/

namespace AccessRules.Sql

open Rule

/-- The ways in which a text is matched against a pattern. -/
inductive Match
  | anywhere
  | atStart
  | atEnd
deriving DecidableEq, Repr

/-- The name of a parameter. -/
inductive Parameter
  /-- The constant with a number. -/
  | constant (number : Nat)
  /-- A field of the caller. -/
  | auth (field : String)
  /-- A field of the request body. -/
  | data (field : String)
deriving DecidableEq, Repr

/-- The name as it is bound. -/
def Parameter.name : Parameter → String
  | .constant number => "param_" ++ toString number
  | .auth field => "auth_" ++ field
  | .data field => "data_" ++ field

/-- A condition, or a part of one. -/
inductive Condition
  | column (name : String)
  | parameter (p : Parameter)
  | not (c : Condition)
  | connective (op : Connective) (left right : Condition)
  | comparison (op : Comparison) (left right : Condition)
  /-- Whether a value is one of some constants. -/
  | oneOf (c : Condition) (numbers : List Nat)
  /-- A condition that no row meets. -/
  | never
  | like (pattern : Match) (text part : Condition)

/-- The sign of a comparison in SQL. -/
def comparisonSign : Comparison → String
  | .eq => "="
  | .ne => "<>"
  | .lt => "<"
  | .gt => ">"
  | .le => "<="
  | .ge => ">="
  | .member => "IN"

/-- The word of a connective in SQL. -/
def connectiveWord : Connective → String
  | .and => "AND"
  | .or => "OR"

/-- A parameter as it stands in a condition. -/
def Parameter.text (p : Parameter) : String :=
  ":" ++ p.name

/-- The pattern that a text is matched against. -/
def patternText (pattern : Match) (part : String) : String :=
  match pattern with
  | .anywhere => "'%' || " ++ part ++ " || '%'"
  | .atStart => part ++ " || '%'"
  | .atEnd => "'%' || " ++ part

/-- The text of a condition. -/
def Condition.text : Condition → String
  | .column name => name
  | .parameter p => p.text
  | .not c => "NOT (" ++ c.text ++ ")"
  | .connective op left right =>
    "(" ++ left.text ++ " " ++ connectiveWord op ++ " " ++ right.text ++ ")"
  | .comparison op left right => left.text ++ " " ++ comparisonSign op ++ " " ++ right.text
  | .oneOf c numbers =>
    c.text ++ " IN (" ++
      String.intercalate ", " (numbers.map fun n => (Parameter.constant n).text) ++ ")"
  | .never => "1=0"
  | .like pattern text part => text.text ++ " LIKE " ++ patternText pattern part.text

end AccessRules.Sql
