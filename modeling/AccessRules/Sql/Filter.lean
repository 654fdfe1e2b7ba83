import AccessRules.Permission.Guard
import AccessRules.Sql.Compile
import AccessRules.Value.Json

/-!
# Row filters

A guard compiles to a filter: the text of a condition and the values of its parameters. A guard
that denies everything gives a condition that no row meets, one that allows everything a condition
that every row meets.
-/

namespace AccessRules.Sql

open Rule

/-- A condition with the values of its parameters. -/
structure Filter where
  sql : String
  params : Dict Value

namespace Filter

/-- No row. -/
def denyAll : Filter := ⟨"1=0", []⟩

/-- Every row. -/
def allowAll : Filter := ⟨"1=1", []⟩

/-- The condition in parentheses, to be joined with others. -/
def wrapped (f : Filter) : String :=
  "(" ++ f.sql ++ ")"

/-- Writes a filter down. -/
def write {α : Type} (writer : Json.Writer α) (f : Filter) : α :=
  writer.map [("sql", writer.string f.sql),
    ("params", writer.map (Value.writeEntries writer f.params))]

/-- A filter as JSON. -/
def toJson (f : Filter) : Json :=
  f.write .value

/-- The filter of a rule. -/
def ofExpr (auth : Auth) (e : Expr) : Except Error Filter :=
  match compile auth .empty e with
  | .error obstacle => .error (.notSql obstacle)
  | .ok (condition, bindings) => .ok ⟨condition.text, bindings.params⟩

/-- The filter of a guard. -/
def ofGuard (auth : Auth) : Guard → Except Error Filter
  | .denyAll => .ok denyAll
  | .allowAll => .ok allowAll
  | .rule source =>
    match parse source with
    | .error e => .error (.malformedRule e)
    | .ok e => ofExpr auth e

end Filter

/-- What a JSON value says about the caller. -/
def Auth.ofJson (json : Json) : Except Error Auth :=
  match Value.ofJson json with
  | .map entries => .ok ⟨entries⟩
  | other => .error (.notAnObject .auth other.typeName)

end AccessRules.Sql
