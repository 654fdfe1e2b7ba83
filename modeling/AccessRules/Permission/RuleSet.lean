import AccessRules.Json.Document
import AccessRules.Permission.Guard

/-!
# The rules of a collection

A collection has at most one rule text for each operation. A rule set is written as JSON with all
five operations, null for those without a text; it is read from an object that may leave members
out, or from an array of at most five texts in the order of the operations.
-/

namespace AccessRules

/-- The rule texts of the five operations. -/
structure RuleSet where
  list : Option String
  view : Option String
  create : Option String
  update : Option String
  delete : Option String
deriving DecidableEq, Repr

namespace RuleSet

/-- No operation has a rule. -/
def empty : RuleSet := ⟨none, none, none, none, none⟩

/-- The rule text of an operation. -/
def rule (rules : RuleSet) : Operation → Option String
  | .list => rules.list
  | .view => rules.view
  | .create => rules.create
  | .update => rules.update
  | .delete => rules.delete

/-- Sets or removes the rule text of an operation. -/
def set (rules : RuleSet) (operation : Operation) (rule : Option String) : RuleSet :=
  match operation with
  | .list => { rules with list := rule }
  | .view => { rules with view := rule }
  | .create => { rules with create := rule }
  | .update => { rules with update := rule }
  | .delete => { rules with delete := rule }

/-- The guard of an operation. -/
def guard (rules : RuleSet) (operation : Operation) : Guard :=
  .ofText? (rules.rule operation)

/-- The operations whose rules do not fit a collection with the given fields. -/
def failures (rules : RuleSet) (fields : List String) : List (Operation × Error) :=
  Operation.all.filterMap fun operation =>
    match (rules.guard operation).check operation fields with
    | .ok () => none
    | .error e => some (operation, e)

/-- A rule set as JSON. -/
def toJson (rules : RuleSet) : Json :=
  .object (Operation.all.map fun operation =>
    (operation.name, Json.ofText? (rules.rule operation)))

/-- The optional text that a JSON document stands for. -/
def textOfDocument? : Json.Document → Option (Option String)
  | .null => some none
  | .string (some s) => some (some s)
  | _ => none

/-- The operation that a member belongs to; the name must match exactly. -/
def operationOfKey? (key : String) : Option Operation :=
  Operation.all.find? fun operation => operation.name == key

/-- Reads the members of an object one by one. `seen` holds the operations read before; none may
come twice, and members of other names are skipped. -/
def ofMembers? (rules : RuleSet) (seen : List Operation) :
    List (Option String × Json.Document) → Option RuleSet
  | [] => some rules
  | (none, _) :: _ => none
  | (some key, document) :: members =>
    match operationOfKey? key with
    | none => ofMembers? rules seen members
    | some operation =>
      if seen.contains operation then none
      else match textOfDocument? document with
        | none => none
        | some rule => ofMembers? (rules.set operation rule) (operation :: seen) members

/-- Reads the items of an array, the first for the first of the operations. -/
def ofItems? (rules : RuleSet) : List Operation → List Json.Document → Option RuleSet
  | _, [] => some rules
  | [], _ :: _ => none
  | operation :: operations, document :: documents =>
    match textOfDocument? document with
    | none => none
    | some rule => ofItems? (rules.set operation rule) operations documents

/-- Reads a rule set. -/
def ofDocument? : Json.Document → Option RuleSet
  | .object members => ofMembers? empty [] members
  | .array items => ofItems? empty Operation.all items
  | _ => none

end RuleSet

end AccessRules
