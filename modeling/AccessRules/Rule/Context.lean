import AccessRules.Value.Basic

/-!
# The data a rule is decided on

A context holds values under top-level names: usually `user`, `record`, `permissions` and
`@request`. A path such as `user.profile.name` leads from the top-level value through members; a
step that leads nowhere gives null.
-/

namespace AccessRules.Rule

/-- The top-level values. -/
structure Context where
  entries : Dict Value

namespace Context

/-- The context without values. -/
def empty : Context := ⟨[]⟩

/-- Sets a top-level value. -/
def insert (context : Context) (key : String) (value : Value) : Context :=
  ⟨Dict.insert key value context.entries⟩

/-- A top-level value. -/
def get? (context : Context) (key : String) : Option Value :=
  Dict.find? context.entries key

/-- The parts of a text between its points; a text without a point is its only part. -/
def segments : List Char → List (List Char)
  | [] => [[]]
  | c :: cs =>
    if c = '.' then [] :: segments cs
    else match segments cs with
      | [] => [[c]]
      | part :: parts => (c :: part) :: parts

/-- Goes from a value through members; null ends the way, as nothing lies behind it. -/
def follow : Value → List String → Value
  | value, [] => value
  | value, name :: names => if value.isNull then .null else follow (value.member name) names

theorem follow_null (names : List String) : follow .null names = .null := by
  cases names <;> rfl

/-- Ending the way at null makes no difference, as null has only null for members. -/
theorem follow_cons (value : Value) (name : String) (names : List String) :
    follow value (name :: names) = follow (value.member name) names := by
  rw [follow]
  split
  next hnull =>
    cases value with
    | null => exact (follow_null names).symm
    | _ => cases hnull
  next => rfl

/-- The value that a path leads to. -/
def resolve (context : Context) (path : String) : Value :=
  match (segments path.toList).map String.ofList with
  | [] => .null
  | head :: names =>
    match context.get? head with
    | some value => follow value names
    | none => .null

end Context

end AccessRules.Rule
