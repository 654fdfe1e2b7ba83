/-!
# What a path in a rule refers to

A path that starts with `@request.auth.` names a field of the caller, one that starts with
`@request.data.` a field of the request body, and any other path a field of the collection. Only
four fields of the caller may be used.
-/

namespace AccessRules.Rule

/-- What a path refers to. -/
inductive Variable
  | auth (field : String)
  | data (field : String)
  | field (name : String)
deriving DecidableEq, Repr

namespace Variable

/-- How paths to the caller start. -/
def authStart : String := "@request.auth."

/-- How paths to the request body start. -/
def dataStart : String := "@request.data."

/-- The rest of a text behind a given start. -/
def behind? (start text : String) : Option String :=
  if start.toList.isPrefixOf text.toList then
    some (String.ofList (text.toList.drop start.toList.length))
  else none

/-- What a path refers to. -/
def ofPath (path : String) : Variable :=
  match behind? authStart path with
  | some rest => .auth rest
  | none =>
    match behind? dataStart path with
    | some rest => .data rest
    | none => .field path

/-- The fields of the caller that a rule may use. -/
def authFields : List String := ["id", "email", "role", "account_id"]

/-- Whether a rule may use the field of the caller. -/
def isAuthField (field : String) : Bool :=
  authFields.contains field

/-- The wording for a field of the caller that a rule may not use. -/
def authFieldMessage (field : String) : String :=
  String.join ["'@request.auth.", field, "' is not an allowed auth field"]

end Variable

end AccessRules.Rule
