import AccessRules.Error
import AccessRules.Rule.Evaluate
import AccessRules.Rule.Expr.Parse
import AccessRules.Value.Json

/-!
# What guards an operation

An operation is guarded by a rule text, or by none. Two guards are not read as rules: without a
text everything is denied, and the empty text allows everything.
-/

namespace AccessRules

open Rule

/-- The context that a JSON value describes; it must be an object. -/
def Rule.Context.ofJson (json : Json) : Except Error Context :=
  match Value.ofJson json with
  | .map entries => .ok ⟨entries⟩
  | other => .error (.notAnObject .context other.typeName)

/-- What guards an operation. -/
inductive Guard
  | denyAll
  | allowAll
  | rule (source : String)
deriving DecidableEq, Repr

namespace Guard

/-- The guard that an optional text stands for. -/
def ofText? : Option String → Guard
  | none => .denyAll
  | some source => if source = "" then .allowAll else .rule source

/-- Whether a guard lets a request through. -/
def admits (guard : Guard) (context : Context) (hour : Hour) : Except Error Bool :=
  match guard with
  | .denyAll => .ok false
  | .allowAll => .ok true
  | .rule source =>
    match parse source with
    | .error e => .error (.malformedRule e)
    | .ok e => (e.holds context hour).mapError .faultyCall

/-- What keeps a guard from being kept for an operation of a collection with the given fields. -/
def check (guard : Guard) (operation : Operation) (fields : List String) : Except Error Unit :=
  match guard with
  | .denyAll => .ok ()
  | .allowAll => .ok ()
  | .rule source =>
    match parse source with
    | .error e => .error (.malformedRule e)
    | .ok e =>
      match e.violations operation fields with
      | [] => .ok ()
      | violations => .error (.invalidRule violations)

end Guard

end AccessRules
