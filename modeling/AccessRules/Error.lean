import AccessRules.Rule.SyntaxError
import AccessRules.Rule.Violation
import AccessRules.Sql.Obstacle

/-!
# Errors

Everything that can go wrong with a rule, a schema or its data is one of these causes. Each has a
code and a status for callers over a network, and a message for people. The texts of faults in
YAML and JSON sources are left to their readers, so those two causes have only a general message.
-/

namespace AccessRules

open Rule

/-- What had to be a JSON object. -/
inductive ObjectRole
  | context
  | auth
deriving DecidableEq, Repr

/-- The name of a role in messages. -/
def ObjectRole.name : ObjectRole → String
  | .context => "context"
  | .auth => "auth context"

/-- What went wrong. -/
inductive Error
  /-- A text is no rule. -/
  | malformedRule (error : SyntaxError)
  /-- A rule that is being evaluated makes a faulty call. -/
  | faultyCall (fault : CallFault)
  /-- A rule has no condition in SQL. -/
  | notSql (obstacle : Sql.Obstacle)
  /-- A JSON value of another type stands for an object. -/
  | notAnObject (role : ObjectRole) (typeName : String)
  /-- A rule does not fit its collection. -/
  | invalidRule (violations : List Violation)
  /-- A schema has a version that is not supported. -/
  | unsupportedVersion (version : Nat)
  /-- A relation does not say which collection it refers to. -/
  | relationWithoutCollection (field : String)
  /-- A declared field has the name of a system field. -/
  | reservedField (collection field : String)
  /-- A relation refers to a collection that is not there. -/
  | unknownCollection (collection field target : String)
  | duplicateCollection (name : String)
  | invalidFieldType (typeName : String)
  | yaml
  | json

namespace Error

/-- The code of an error. -/
def code : Error → String
  | .malformedRule _ => "RULE_SYNTAX_ERROR"
  | .faultyCall _ | .notSql _ | .notAnObject .. => "RULE_EVALUATION_ERROR"
  | .invalidRule _ => "RULE_VALIDATION_ERROR"
  | .unsupportedVersion _ | .relationWithoutCollection _ => "SCHEMA_PARSE_ERROR"
  | .reservedField .. | .unknownCollection .. => "SCHEMA_VALIDATION_ERROR"
  | .duplicateCollection _ => "DUPLICATE_COLLECTION"
  | .invalidFieldType _ => "INVALID_FIELD_TYPE"
  | .yaml => "YAML_ERROR"
  | .json => "JSON_ERROR"

/-- The status of an error: a conflict for a name that is taken, and a bad request for all
others. -/
def status : Error → Nat
  | .duplicateCollection _ => 409
  | _ => 400

/-- The place of a syntax error in its text. -/
def position? : Error → Option Nat
  | .malformedRule e => some e.position
  | _ => none

/-- The violations of an invalid rule. -/
def violations : Error → List Violation
  | .invalidRule violations => violations
  | _ => []

/-- What is wrong, without the kind of error. -/
def detail : Error → String
  | .malformedRule e => e.fault.message
  | .faultyCall fault => fault.message
  | .notSql obstacle => obstacle.message
  | .notAnObject role typeName => String.join [role.name, " must be a JSON object, got ", typeName]
  | .invalidRule violations => String.intercalate "; " (violations.map Violation.message)
  | .unsupportedVersion version => String.join ["unsupported version ", toString version]
  | .relationWithoutCollection field =>
    String.join ["relation field '", field, "' requires 'collection'"]
  | .reservedField collection field =>
    String.join ["field '", collection, ".", field, "' is a reserved system field"]
  | .unknownCollection collection field target =>
    String.join ["field '", collection, ".", field, "' references unknown collection '", target,
      "'"]
  | .duplicateCollection name => name
  | .invalidFieldType typeName => typeName
  | .yaml => "the text is no schema"
  | .json => "the text has no such value"

/-- The kind of an error, as the start of its message. -/
def kind : Error → String
  | .malformedRule e => String.join ["syntax error at position ", toString e.position]
  | .faultyCall _ | .notSql _ | .notAnObject .. => "evaluation error"
  | .invalidRule _ => "invalid rule"
  | .unsupportedVersion _ | .relationWithoutCollection _ => "schema parse error"
  | .reservedField .. | .unknownCollection .. => "schema validation error"
  | .duplicateCollection _ => "duplicate collection name"
  | .invalidFieldType _ => "invalid field type"
  | .yaml => "YAML parse error"
  | .json => "JSON error"

/-- The message of an error. -/
def message (e : Error) : String :=
  e.kind ++ ": " ++ e.detail

end Error

end AccessRules
