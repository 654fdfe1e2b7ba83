import AccessRules.Operation
import AccessRules.Rule.Expr.Basic
import AccessRules.Rule.Function
import AccessRules.Rule.Variable

/-!
# Checking a rule against a collection

Before a rule is kept it is checked against the fields of its collection and the operation it
guards. `Expr.violations` lists what is wrong with a rule: each violation once, in the order in
which they stand in the text, that of a call before those of its arguments.
-/

namespace AccessRules.Rule

/-- What is wrong with a rule. -/
inductive Violation
  | unknownField (name : String)
  | authField (field : String)
  | requestData (field : String) (operation : Operation)
  | call (fault : CallFault)
deriving DecidableEq

/-- The wording of a violation. -/
def Violation.message : Violation → String
  | .unknownField name => String.join ["unknown field '", name, "'"]
  | .authField field => Variable.authFieldMessage field
  | .requestData field operation =>
    String.join ["'@request.data.", field, "' is only allowed in create and update rules, not ",
      operation.name]
  | .call fault => fault.message

/-- What is wrong with a path. -/
def pathViolations (operation : Operation) (fields : List String) (path : String) :
    List Violation :=
  match Variable.ofPath path with
  | .auth field => if Variable.isAuthField field then [] else [.authField field]
  | .data field => if operation.hasRequestData then [] else [.requestData field operation]
  | .field name => if fields.contains name then [] else [.unknownField name]

/-- What is wrong with a call, whatever its arguments are. -/
def callViolations (name : String) (args : Nat) : List Violation :=
  match Function.resolve name args with
  | .ok _ => []
  | .error fault => [.call fault]

namespace Expr

mutual

/-- Every violation in a rule, as often as it occurs. -/
def occurrences (operation : Operation) (fields : List String) : Expr → List Violation
  | .literal _ => []
  | .path name => pathViolations operation fields name
  | .comparison _ left right =>
    occurrences operation fields left ++ occurrences operation fields right
  | .connective _ left right =>
    occurrences operation fields left ++ occurrences operation fields right
  | .not operand => occurrences operation fields operand
  | .call name args =>
    callViolations name args.length ++ argOccurrences operation fields args

/-- Every violation in some arguments, as often as it occurs. -/
def argOccurrences (operation : Operation) (fields : List String) : List Expr → List Violation
  | [] => []
  | arg :: args => occurrences operation fields arg ++ argOccurrences operation fields args

end

/-- The violations in a rule, each once. -/
def violations (operation : Operation) (fields : List String) (e : Expr) : List Violation :=
  (e.occurrences operation fields).eraseDups

end Expr

end AccessRules.Rule
