import AccessRules.Permission.RuleSet

/-!
# Deciding about a request

A request is allowed, or denied with a reason.
-/

namespace AccessRules

open Rule

/-- Why a request is denied. -/
inductive Denial
  /-- The operation has no rule. -/
  | noRule (operation : Operation)
  /-- The rule of the operation does not hold. -/
  | ruleFalse (operation : Operation)
  /-- A rule given on its own does not hold. -/
  | false
deriving DecidableEq, Repr

/-- The wording of a reason. -/
def Denial.text : Denial → String
  | .noRule operation => "no " ++ operation.name ++ " rule defined"
  | .ruleFalse operation => operation.name ++ " rule evaluated to false"
  | .false => "rule evaluated to false"

/-- What is decided about a request. -/
inductive Decision
  | allow
  | deny (reason : Denial)
deriving DecidableEq, Repr

namespace Decision

/-- Whether a request is allowed. -/
def allowed : Decision → Bool
  | .allow => true
  | .deny _ => false

/-- Why a request is denied, if it is. -/
def reason? : Decision → Option String
  | .allow => none
  | .deny reason => some reason.text

/-- A decision as JSON. -/
def toJson (d : Decision) : Json :=
  .object [("allowed", .bool d.allowed), ("reason", Json.ofText? d.reason?)]

end Decision

/-- Decides about an operation. -/
def RuleSet.decide (rules : RuleSet) (operation : Operation) (context : Context) (hour : Hour) :
    Except Error Decision :=
  match rules.guard operation with
  | .denyAll => .ok (.deny (.noRule operation))
  | guard =>
    match guard.admits context hour with
    | .error e => .error e
    | .ok true => .ok .allow
    | .ok false => .ok (.deny (.ruleFalse operation))

/-- Decides by a rule that is given on its own. The empty text is no rule here, and so is
malformed. -/
def decideByRule (source : String) (context : Context) (hour : Hour) : Except Error Decision :=
  match parse source with
  | .error e => .error (.malformedRule e)
  | .ok e =>
    match e.holds context hour with
    | .error fault => .error (.faultyCall fault)
    | .ok true => .ok .allow
    | .ok false => .ok (.deny .false)

end AccessRules
