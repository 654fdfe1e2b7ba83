import AccessRules.Rule.Function
import AccessRules.Rule.Variable

/-!
# Why a rule has no SQL condition

Some rules can be evaluated but not handed to a database. These are the reasons.
-/

namespace AccessRules.Sql

open Rule

/-- Why a rule has no SQL condition. -/
inductive Obstacle
  /-- A call is faulty in itself. -/
  | call (fault : CallFault)
  /-- A macro needs data that the database does not have. -/
  | macroAtRunTime (f : Function)
  /-- A field of the caller may not be used. -/
  | authField (field : String)
  /-- A path is no plain column or parameter name. -/
  | column (path : String)
  /-- A list stands elsewhere than on the right of `in`. -/
  | listOperand
  /-- Something else than a list stands on the right of `in`. -/
  | containerOperand
deriving DecidableEq

/-- The wording of an obstacle. -/
def Obstacle.message : Obstacle → String
  | .call fault => fault.message
  | .macroAtRunTime f => String.join [f.name, "() cannot be compiled to SQL"]
  | .authField field => Variable.authFieldMessage field
  | .column path => String.join ["'", path, "' is not a valid column reference"]
  | .listOperand => "list literals are only supported on the right of 'in'"
  | .containerOperand => "'in' requires a list literal on the right when compiled to SQL"

end AccessRules.Sql
