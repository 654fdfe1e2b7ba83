import AccessRules.Permission.Guard
import AccessRules.Proofs.Rule.Strict

/-!
# Bracketing a chain

The operands of a chain of `and`, or of `or`, can be bracketed in many ways, and some of them nest less
deeply than others. What the chain answers hangs on its operands alone: they are looked at from the left
up to the first that fails or decides (`chainAnswer`).

> `evaluate_toExpr`: every bracketing of some operands has the value of the chain of them.
> `bracketings_agree`: two bracketings of the same operands have the same value or the same fault, and
> rules that are read as the two let the same requests through.
-/

namespace AccessRules.Rule

/-- A way to bracket some operands. -/
inductive Bracketing
  | operand (e : Expr)
  | join (left right : Bracketing)

namespace Bracketing

/-- The operands, from left to right. -/
def operands : Bracketing → List Expr
  | .operand e => [e]
  | .join left right => left.operands ++ right.operands

/-- The rule in which the operands are combined by one connective. -/
def toExpr (op : Connective) : Bracketing → Expr
  | .operand e => e
  | .join left right => .connective op (left.toExpr op) (right.toExpr op)

end Bracketing

section

variable {op : Connective} {context : Context} {hour : Hour} {left right : Expr}

/-! ## One connective -/

/-- An operand leaves a connective undecided only if it is true before an "and" or false before an
"or". -/
theorem Connective.eq_of_not_decided {op : Connective} {b : Bool} (h : op.decided b = false) :
    b = (op == .and) := by
  revert h
  cases op <;> cases b <;> decide

/-- The right operand is looked at only if the left one does not decide. -/
theorem Expr.holds_connective :
    (Expr.connective op left right).holds context hour =
      (left.holds context hour).bind fun b =>
        if op.decided b then .ok b else right.holds context hour := by
  rw [holds, holds, holds, evaluate_connective]
  cases left.evaluate context hour with
  | error fault => rfl
  | ok l =>
    show Except.map Value.isTruthy (if op.decided l.isTruthy then _ else _) =
      if op.decided l.isTruthy then _ else _
    split
    next => rfl
    next => cases right.evaluate context hour <;> rfl

/-- The value of a connective is the truth value that it has. -/
theorem Expr.evaluate_connective_eq_holds :
    (Expr.connective op left right).evaluate context hour =
      ((Expr.connective op left right).holds context hour).map .bool := by
  rw [holds, evaluate_connective]
  cases left.evaluate context hour with
  | error fault => rfl
  | ok l =>
    show (if op.decided l.isTruthy then _ else _) =
      Except.map Value.bool (Except.map Value.isTruthy (if op.decided l.isTruthy then _ else _))
    split
    next => rfl
    next => cases right.evaluate context hour <;> rfl

/-! ## Chains -/

/-- What a chain of operands answers: they are looked at from the left, and the first that fails or
decides settles the answer. -/
def chainAnswer (op : Connective) (context : Context) (hour : Hour) :
    List Expr → Except CallFault Bool
  | [] => .ok (op == .and)
  | e :: es => (e.holds context hour).bind fun b =>
      if op.decided b then .ok b else chainAnswer op context hour es

theorem chainAnswer_singleton (e : Expr) :
    chainAnswer op context hour [e] = e.holds context hour := by
  rw [chainAnswer, chainAnswer]
  cases e.holds context hour with
  | error fault => rfl
  | ok b =>
    show (if op.decided b then .ok b else .ok (op == .and)) = Except.ok b
    split
    next => rfl
    next h => rw [← Connective.eq_of_not_decided (Bool.eq_false_iff.mpr h)]

/-- Where the operands in front do not settle the answer, those behind give it. -/
theorem chainAnswer_append (es fs : List Expr) :
    chainAnswer op context hour (es ++ fs) =
      (chainAnswer op context hour es).bind fun b =>
        if op.decided b then .ok b else chainAnswer op context hour fs := by
  induction es with
  | nil =>
    -- No operands give the answer that does not decide, so the chain behind them is looked at.
    have hneutral : op.decided (op == .and) = false := by cases op <;> rfl
    rw [List.nil_append, chainAnswer]
    exact (if_neg (Bool.eq_false_iff.mp hneutral)).symm
  | cons e es ih =>
    rw [List.cons_append, chainAnswer, chainAnswer, ih]
    cases e.holds context hour with
    | error fault => rfl
    | ok b =>
      show (if op.decided b then _ else _) = Except.bind (if op.decided b then _ else _) _
      split
      next h => exact (if_pos h).symm
      next => rfl

/-- Every bracketing answers as the chain of its operands. -/
theorem Bracketing.holds_toExpr (b : Bracketing) :
    (b.toExpr op).holds context hour = chainAnswer op context hour b.operands := by
  induction b with
  | operand e => exact (chainAnswer_singleton e).symm
  | join left right ihleft ihright =>
    rw [toExpr, operands, Expr.holds_connective, chainAnswer_append, ihleft, ihright]

theorem Bracketing.operands_ne_nil (b : Bracketing) : b.operands ≠ [] := by
  induction b with
  | operand e => exact List.cons_ne_nil e []
  | join left right ihleft _ => exact List.append_ne_nil_of_left_ne_nil ihleft _

/-- Where two groups are joined, there are at least two operands. -/
theorem Bracketing.two_le_length_join (left right : Bracketing) :
    2 ≤ (join left right).operands.length := by
  have hleft := List.length_pos_iff.mpr left.operands_ne_nil
  have hright := List.length_pos_iff.mpr right.operands_ne_nil
  rw [operands, List.length_append]
  omega

/-- The value of a chain: one operand alone keeps its value, more have the truth value that they
answer. -/
def chainValue (op : Connective) (context : Context) (hour : Hour) :
    List Expr → Except CallFault Value
  | [e] => e.evaluate context hour
  | es => (chainAnswer op context hour es).map .bool

/-- Two operands or more give a truth value, whatever the first one is; only a single operand keeps
its own value. -/
theorem chainValue_of_two_le {es : List Expr} (h : 2 ≤ es.length) :
    chainValue op context hour es = (chainAnswer op context hour es).map .bool := by
  cases es with
  | nil => rfl
  | cons e es =>
    cases es with
    | nil => exact absurd h (Nat.not_succ_le_self 1)
    | cons f es => rfl

/-- Every bracketing has the value of the chain of its operands. -/
theorem Bracketing.evaluate_toExpr (b : Bracketing) :
    (b.toExpr op).evaluate context hour = chainValue op context hour b.operands := by
  cases b with
  | operand e => rfl
  | join left right =>
    -- A connective stands at the top, so the value is a truth value whatever its operands are.
    rw [chainValue_of_two_le (left.two_le_length_join right), ← holds_toExpr]
    exact Expr.evaluate_connective_eq_holds

end

/-! ## Rules -/

/-- A text that can be read as a rule is not the empty one, which allows everything unread. -/
theorem ofText?_of_parse {source : String} {e : Expr} (h : parse source = .ok e) :
    Guard.ofText? (some source) = .rule source := by
  refine if_neg ?_
  rintro rfl
  -- The empty text has no tokens but the end, where an operand is missing.
  have hempty : (parse "").toOption = none := by decide +kernel
  rw [h] at hempty
  cases hempty

/-- **Bracketing a chain differently never changes a decision.** Two rules that combine the same operands
in the same order by the same connective have the same value or the same fault, in every context and at
every hour, and it is that of the chain of operands. Texts that are read as the two guard an operation
alike. -/
theorem bracketings_agree (op : Connective) {b b' : Bracketing} (h : b.operands = b'.operands)
    (context : Context) (hour : Hour) :
    (b.toExpr op).evaluate context hour = (b'.toExpr op).evaluate context hour ∧
      (b.toExpr op).evaluate context hour = chainValue op context hour b.operands ∧
      ∀ source source', parse source = .ok (b.toExpr op) → parse source' = .ok (b'.toExpr op) →
        (Guard.ofText? (some source)).admits context hour =
          (Guard.ofText? (some source')).admits context hour := by
  have hsame : (b.toExpr op).evaluate context hour = (b'.toExpr op).evaluate context hour := by
    rw [Bracketing.evaluate_toExpr, Bracketing.evaluate_toExpr, h]
  refine ⟨hsame, b.evaluate_toExpr, ?_⟩
  intro source source' hparse hparse'
  rw [ofText?_of_parse hparse, ofText?_of_parse hparse', Guard.admits, Guard.admits, hparse, hparse']
  simp only [Expr.holds, hsame]

/-- Two bracketings of three operands, of which the last cannot be called: where the second is false it
decides in both, and where it is true both fail at the call. -/
theorem bracketings_agree_three :
    let first : Bracketing := .operand (.path "title")
    let second : Bracketing := .operand (.path "draft")
    let last : Bracketing := .operand (.call "nope" [])
    let b := Bracketing.join (.join first second) last
    let b' := Bracketing.join first (.join second last)
    let context (draft : Bool) : Context := ⟨[("draft", .bool draft), ("title", .string "x")]⟩
    let guard (source : String) : Guard := .ofText? (some source)
    b.operands = b'.operands ∧
      parse "title and draft and nope()" = .ok (b.toExpr .and) ∧
      parse "title and (draft and nope())" = .ok (b'.toExpr .and) ∧
      (b'.toExpr .and).evaluate (context false) 0 = .ok (.bool false) ∧
      (b'.toExpr .and).evaluate (context true) 0 = .error (.unknownFunction "nope") ∧
      (guard "title and draft and nope()").admits (context false) 0 =
        (guard "title and (draft and nope())").admits (context false) 0 := by
  intro first second last b b' context guard
  have hoperands : b.operands = b'.operands := rfl
  have hparse : parse "title and draft and nope()" = .ok (b.toExpr .and) := by
    with_unfolding_all rfl
  have hparse' : parse "title and (draft and nope())" = .ok (b'.toExpr .and) := by
    with_unfolding_all rfl
  obtain ⟨hdecided, hchain, hguards⟩ := bracketings_agree .and hoperands (context false) 0
  obtain ⟨hfails, hchain', -⟩ := bracketings_agree .and hoperands (context true) 0
  refine ⟨hoperands, hparse, hparse', ?_, ?_, hguards _ _ hparse hparse'⟩
  · rw [← hdecided, hchain]
    rfl
  · rw [← hfails, hchain']
    rfl

end AccessRules.Rule
