/-!
# Operations on a collection

Each rule guards one of five operations. Creating and updating carry a request body, so only their
rules may refer to it.
-/

namespace AccessRules

/-- What a caller can do with a collection. -/
inductive Operation
  | list
  | view
  | create
  | update
  | delete
deriving DecidableEq, Repr

namespace Operation

/-- All operations, in the order in which they are reported. -/
def all : List Operation := [.list, .view, .create, .update, .delete]

/-- The name of an operation. -/
def name : Operation → String
  | .list => "list"
  | .view => "view"
  | .create => "create"
  | .update => "update"
  | .delete => "delete"

/-- The operation of a name in letters of any case. Lowering the ASCII letters is enough: the only
other character that lowers to a single ASCII letter is the Kelvin sign, and no name has a `k`. -/
def ofName? (name : String) : Option Operation :=
  match name.toLower with
  | "list" => some .list
  | "view" => some .view
  | "create" => some .create
  | "update" => some .update
  | "delete" => some .delete
  | _ => none

/-- Whether the operation has a request body. -/
def hasRequestData : Operation → Bool
  | .create => true
  | .update => true
  | _ => false

end Operation

end AccessRules
