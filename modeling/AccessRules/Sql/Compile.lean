import AccessRules.Rule.Expr.Basic
import AccessRules.Sql.Condition
import AccessRules.Sql.Obstacle

/-!
# From a rule to an SQL condition

A rule is compiled from left to right. Each constant becomes the parameter with the next number,
and every parameter that comes up is bound: a constant to its value, a field of the caller to what
is known about the caller, and a field of the request body to null, for whoever runs the query to
replace. What is bound stays bound also where the condition no longer needs it.
-/

namespace AccessRules.Sql

open Rule

/-- What is known about the caller when a rule is compiled. -/
structure Auth where
  entries : Dict Value

namespace Auth

/-- Nothing is known. -/
def empty : Auth := ⟨[]⟩

/-- A field of the caller; the empty text if it is not known. -/
def get (auth : Auth) (field : String) : Value :=
  (Dict.find? auth.entries field).getD (.string "")

end Auth

/-- The parameters bound so far, the last one first, and the number of constants among them. -/
structure Bindings where
  constants : Nat
  bound : List (Parameter × Value)

namespace Bindings

/-- Nothing is bound. -/
def empty : Bindings := ⟨0, []⟩

/-- Binds a parameter. -/
def bind (b : Bindings) (p : Parameter) (value : Value) : Bindings :=
  { b with bound := (p, value) :: b.bound }

/-- Binds the parameter of the next constant. -/
def bindConstant (b : Bindings) (value : Value) : Bindings :=
  ⟨b.constants + 1, (.constant b.constants, value) :: b.bound⟩

/-- The bound parameters by name. -/
def params (b : Bindings) : Dict Value :=
  Dict.ofList (b.bound.reverse.map fun (p, value) => (p.name, value))

end Bindings

/-- A part of a condition, and what is bound once it has been compiled. -/
abbrev Compiled (α : Type) := Except Obstacle (α × Bindings)

/-- Whether a name is made of ASCII letters, digits and underscores and does not start with a
digit. -/
def isPlainName (name : String) : Bool :=
  match name.toList with
  | [] => false
  | c :: cs => (c.isAlpha || c = '_') && cs.all fun c => c.isAlphanum || c = '_'

variable (auth : Auth)

/-- The parameter of a field of the caller. -/
def compileAuth (field : String) (b : Bindings) : Compiled Condition :=
  if Variable.isAuthField field then
    .ok (.parameter (.auth field), b.bind (.auth field) (auth.get field))
  else .error (.authField field)

/-- The column or parameter of a path. -/
def compilePath (path : String) (b : Bindings) : Compiled Condition :=
  match Variable.ofPath path with
  | .auth field => compileAuth auth field b
  | .data field =>
    if isPlainName field then .ok (.parameter (.data field), b.bind (.data field) .null)
    else .error (.column path)
  | .field name => if isPlainName name then .ok (.column name, b) else .error (.column path)

/-- The parameters of the items of a list. -/
def compileItems (b : Bindings) : List Literal → List Nat × Bindings
  | [] => ([], b)
  | item :: items =>
    let (numbers, b') := compileItems (b.bindConstant item.toValue) items
    (b.constants :: numbers, b')

/-- The condition that an operand is in what stands on the right of `in`, which must be a list. No
value is in an empty list. -/
def compileMembership (operand : Condition) (b : Bindings) : Expr → Compiled Condition
  | .literal (.list []) => .ok (.never, b)
  | .literal (.list (item :: items)) =>
    let (numbers, b') := compileItems b (item :: items)
    .ok (.oneOf operand numbers, b')
  | _ => .error .containerOperand

/-- The column that holds the owner of a record. -/
def ownerColumn : String := "owner_id"

/-- Whether a call has a condition, and not only an answer at run time. -/
def hasCondition : Function → Bool
  | .hasGroup | .inTimeRange | .hasPermission => false
  | _ => true

/-- The condition of a call whose arguments have been compiled. -/
def compileCall (f : Function) (args : List Condition) (b : Bindings) : Compiled Condition :=
  match f, args with
  | .contains, [text, part] => .ok (.like .anywhere text part, b)
  | .startsWith, [text, part] => .ok (.like .atStart text part, b)
  | .endsWith, [text, part] => .ok (.like .atEnd text part, b)
  | .hasRole, [role] =>
    (compileAuth auth "role" b).map fun (own, b) => (.comparison .eq own role, b)
  | .ownsRecord, [] | .isCreator, [] =>
    (compileAuth auth "id" b).map fun (id, b) => (.comparison .eq (.column ownerColumn) id, b)
  | f, _ => .error (.macroAtRunTime f)

mutual

/-- The condition of a rule. -/
def compile (b : Bindings) : Expr → Compiled Condition
  | .literal (.list _) => .error .listOperand
  | .literal value => .ok (.parameter (.constant b.constants), b.bindConstant value.toValue)
  | .path name => compilePath auth name b
  | .comparison op left right =>
    match compile b left with
    | .error o => .error o
    | .ok (l, b) =>
      if op = .member then compileMembership l b right
      else
        match compile b right with
        | .error o => .error o
        | .ok (r, b) => .ok (.comparison op l r, b)
  | .connective op left right =>
    match compile b left with
    | .error o => .error o
    | .ok (l, b) =>
      match compile b right with
      | .error o => .error o
      | .ok (r, b) => .ok (.connective op l r, b)
  | .not operand =>
    match compile b operand with
    | .error o => .error o
    | .ok (c, b) => .ok (.not c, b)
  | .call name args =>
    match Function.resolve name args.length with
    | .error fault => .error (.call fault)
    | .ok f =>
      if !hasCondition f then .error (.macroAtRunTime f)
      else
        match compileArgs b args with
        | .error o => .error o
        | .ok (cs, b) => compileCall auth f cs b

/-- The conditions of arguments, from left to right. -/
def compileArgs (b : Bindings) : List Expr → Compiled (List Condition)
  | [] => .ok ([], b)
  | arg :: args =>
    match compile b arg with
    | .error o => .error o
    | .ok (c, b) =>
      match compileArgs b args with
      | .error o => .error o
      | .ok (cs, b) => .ok (c :: cs, b)

end

theorem compile_path (b : Bindings) (name : String) :
    compile auth b (.path name) = compilePath auth name b := by
  rw [compile]

end AccessRules.Sql
