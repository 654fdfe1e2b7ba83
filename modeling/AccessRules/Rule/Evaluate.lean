import AccessRules.Rule.Context
import AccessRules.Rule.Expr.Basic
import AccessRules.Rule.Function
import AccessRules.Value.Compare

/-!
# Evaluating a rule

A rule has a value in a context at an hour of the day. `and` and `or` look at their right side only
if the left side does not decide, and give a truth value. Data that is missing or of the wrong type
never fails: it makes a comparison or a call false. Only a call that names no function or has the
wrong number of arguments fails, before its arguments are looked at.
-/

namespace AccessRules.Rule

/-- An hour of the day. -/
abbrev Hour := Fin 24

namespace Comparison

/-- Whether a comparison holds of the order of its operands. -/
def holdsFor (op : Comparison) (order : Ordering) : Bool :=
  match op with
  | .lt => order.isLT
  | .gt => order.isGT
  | .le => order.isLE
  | .ge => order.isGE
  | _ => false

/-- Whether a comparison holds of two values; operands that are incomparable are in no order. -/
def holds (op : Comparison) (left right : Value) : Bool :=
  match op with
  | .eq => left.same right
  | .ne => !left.same right
  | .member => (right.contains? left).getD false
  | op =>
    match left.compare? right with
    | some order => op.holdsFor order
    | none => false

end Comparison

namespace Function

/-- Whether an hour lies between a start, which counts, and an end, which does not. -/
def inRange (start finish : Value) (hour : Hour) : Bool :=
  let now := Value.int (Int64.ofNat hour)
  match start.compare? now, now.compare? finish with
  | some lower, some upper => lower.isLE && upper.isLT
  | _, _ => false

/-- The answer of a function to its arguments. -/
def apply (f : Function) (context : Context) (hour : Hour) (args : List Value) : Bool :=
  match f, args with
  | .contains, [container, item] => (container.contains? item).getD false
  | .startsWith, [.string s, .string start] => start.toList.isPrefixOf s.toList
  | .endsWith, [.string s, .string ending] => ending.toList.isSuffixOf s.toList
  | .hasGroup, [group] => ((context.resolve "user.groups").contains? group).getD false
  | .hasRole, [role] =>
    let own := context.resolve "user.role"
    !own.isNull && own.same role
  | .ownsRecord, [] | .isCreator, [] =>
    let user := context.resolve "user.id"
    let owner := context.resolve "record.owner_id"
    !user.isNull && !owner.isNull && user.same owner
  | .inTimeRange, [start, finish] => inRange start finish hour
  | .hasPermission, [action, .string collection] =>
    match (context.resolve "permissions").member collection with
    | .list actions => ((Value.list actions).contains? action).getD false
    | _ => false
  | _, _ => false

end Function

namespace Expr

mutual

/-- The value of a rule. -/
def evaluate (context : Context) (hour : Hour) : Expr → Except CallFault Value
  | .literal value => .ok value.toValue
  | .path name => .ok (context.resolve name)
  | .comparison op left right =>
    match evaluate context hour left with
    | .error fault => .error fault
    | .ok l =>
      match evaluate context hour right with
      | .error fault => .error fault
      | .ok r => .ok (.bool (op.holds l r))
  | .connective op left right =>
    match evaluate context hour left with
    | .error fault => .error fault
    | .ok l =>
      if l.isTruthy = (op == .or) then .ok (.bool l.isTruthy)
      else
        match evaluate context hour right with
        | .error fault => .error fault
        | .ok r => .ok (.bool r.isTruthy)
  | .not operand =>
    match evaluate context hour operand with
    | .error fault => .error fault
    | .ok v => .ok (.bool !v.isTruthy)
  | .call name args =>
    match Function.resolve name args.length with
    | .error fault => .error fault
    | .ok f =>
      match evaluateArgs context hour args with
      | .error fault => .error fault
      | .ok values => .ok (.bool (f.apply context hour values))

/-- The values of arguments, from left to right. -/
def evaluateArgs (context : Context) (hour : Hour) : List Expr → Except CallFault (List Value)
  | [] => .ok []
  | arg :: args =>
    match evaluate context hour arg with
    | .error fault => .error fault
    | .ok value =>
      match evaluateArgs context hour args with
      | .error fault => .error fault
      | .ok values => .ok (value :: values)

end

/-- Whether a rule holds. -/
def holds (context : Context) (hour : Hour) (e : Expr) : Except CallFault Bool :=
  (e.evaluate context hour).map Value.isTruthy

end Expr

end AccessRules.Rule
