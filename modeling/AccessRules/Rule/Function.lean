/-!
# Functions and macros

The names that a rule can call form a closed set, each with a fixed number of arguments. A name
starting with `@` is a macro: it looks at the caller, the record and the clock besides its
arguments.
-/

namespace AccessRules.Rule

/-- A function or macro. -/
inductive Function
  | contains
  | startsWith
  | endsWith
  | hasGroup
  | hasRole
  | ownsRecord
  | isCreator
  | inTimeRange
  | hasPermission
deriving DecidableEq, Repr

/-- A call that names no function or gives it the wrong number of arguments. -/
inductive CallFault
  | unknownFunction (name : String)
  | wrongArity (name : String) (expected found : Nat)
deriving DecidableEq, Repr

/-- The wording of a fault. -/
def CallFault.message : CallFault → String
  | .unknownFunction name => String.join ["unknown function '", name, "'"]
  | .wrongArity name expected found =>
    String.join [name, "() takes ", toString expected, " argument(s), ", toString found, " given"]

namespace Function

/-- All functions. -/
def all : List Function :=
  [.contains, .startsWith, .endsWith, .hasGroup, .hasRole, .ownsRecord, .isCreator, .inTimeRange,
    .hasPermission]

/-- The name by which a rule calls a function. -/
def name : Function → String
  | .contains => "contains"
  | .startsWith => "starts_with"
  | .endsWith => "ends_with"
  | .hasGroup => "@has_group"
  | .hasRole => "@has_role"
  | .ownsRecord => "@owns_record"
  | .isCreator => "@is_creator"
  | .inTimeRange => "@in_time_range"
  | .hasPermission => "@has_permission"

/-- The number of arguments that a function takes. -/
def arity : Function → Nat
  | .ownsRecord => 0
  | .isCreator => 0
  | .hasGroup => 1
  | .hasRole => 1
  | _ => 2

/-- The function of a name, which must match exactly. -/
def ofName? (name : String) : Option Function :=
  all.find? fun f => f.name == name

/-- The function that a call of a name with a number of arguments means. -/
def resolve (name : String) (args : Nat) : Except CallFault Function :=
  match ofName? name with
  | none => .error (.unknownFunction name)
  | some f => if args = f.arity then .ok f else .error (.wrongArity f.name f.arity args)

end Function

end AccessRules.Rule
