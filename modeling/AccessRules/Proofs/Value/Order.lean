import AccessRules.Proofs.Value.Symmetry
import AccessRules.Rule.Evaluate
import Mathlib.Order.Compare

/-!
# Equality and order of values agree

Equality and order are two definitions with tables of their own: equality knows maps and objects,
which have no order, and order stops at the first items of two lists that differ or cannot be
compared. Where both have an answer, they give the same one:

> `compare?_swap`: the order of `b` and `a` is that of `a` and `b` the other way round.
> `same_of_compare?`: values that have an order are equal exactly if neither comes first.

So of `<`, `==` and `>` a rule finds exactly one true of two values that have an order
(`order_agrees_with_same`).
-/

namespace AccessRules

open Rule

/-! ## Numbers -/

namespace Number.Binary64

/-- Turning two numbers round turns their order round; where one is no number there is none either
way. -/
theorem compare?_swap (x y : Binary64) : y.compare? x = (x.compare? y).map Ordering.swap := by
  unfold compare?
  cases x.scaled with
  | none => cases y.scaled <;> rfl
  | some a =>
    cases y.scaled with
    | none => rfl
    | some b => exact congrArg some (Int.compare_swap a b).symm

/-- Numbers that can be compared are the same if neither is greater. -/
theorem same_of_compare? {x y : Binary64} {o : Ordering} (h : x.compare? y = some o) :
    x.same y = (o == .eq) := by
  rw [same, h]
  rfl

end Number.Binary64

namespace Value

/-- Where equality and order agree, one can be asked instead of the other. -/
theorem beq_eq_compare_beq {α : Type} [Ord α] [Std.LawfulEqOrd α] [BEq α] [LawfulBEq α] (a b : α) :
    (a == b) = (compare a b == .eq) := by
  rw [Bool.eq_iff_iff, beq_iff_eq, beq_iff_eq, Std.compare_eq_iff_eq]

/-! ## The order of two values and the other way round -/

mutual

/-- **The order of two values turns round when they change places**, and is missing both ways or
neither. -/
theorem compare?_swap : (a b : Value) → b.compare? a = (a.compare? b).map Ordering.swap
  | .null, b => by cases b <;> rfl
  | .bool a, b => by
    cases b with
    | bool b => cases a <;> cases b <;> rfl
    | _ => rfl
  | .int a, b => by
    cases b with
    | int b => exact congrArg some (Int.compare_swap a.toInt b.toInt).symm
    | float y => exact Number.Binary64.compare?_swap _ _
    | _ => rfl
  | .float x, b => by
    cases b with
    | int b => exact Number.Binary64.compare?_swap _ _
    | float y => exact Number.Binary64.compare?_swap _ _
    | _ => rfl
  | .string s, b => by
    cases b with
    | string t => exact congrArg some Std.OrientedOrd.eq_swap
    | _ => rfl
  | .list xs, b => by
    cases b with
    | list ys => exact compareItems?_swap xs ys
    | _ => rfl
  | .map _, b => by cases b <;> rfl
  | .object _ _, b => by cases b <;> rfl

/-- Turning two lists round turns their order round, item by item up to the first that decides. -/
theorem compareItems?_swap : (xs ys : List Value) →
    compareItems? ys xs = (compareItems? xs ys).map Ordering.swap
  | [], ys => by cases ys <;> rfl
  | x :: xs, ys => by
    cases ys with
    | nil => rfl
    | cons y ys =>
      rw [compareItems?, compareItems?, compare?_swap x y, compareItems?_swap xs ys]
      -- The first items decide both ways, or neither way.
      cases x.compare? y with
      | none => rfl
      | some o => cases o <;> rfl

end

/-! ## Values that have an order -/

mutual

/-- **Values that have an order are equal exactly if neither comes first.** -/
theorem same_of_compare? : (a b : Value) → {o : Ordering} → a.compare? b = some o →
    a.same b = (o == .eq)
  | .null, b, o, h => by cases b <;> cases h
  | .bool a, b, o, h => by
    cases b with
    | bool b =>
      cases h
      cases a <;> cases b <;> rfl
    | _ => cases h
  | .int a, b, o, h => by
    cases b with
    | int b =>
      cases h
      rw [same, ← beq_eq_compare_beq, Bool.eq_iff_iff, beq_iff_eq, beq_iff_eq, Int64.toInt_inj]
    | float y => exact Number.Binary64.same_of_compare? h
    | _ => cases h
  | .float x, b, o, h => by
    cases b with
    | int b => exact Number.Binary64.same_of_compare? h
    | float y => exact Number.Binary64.same_of_compare? h
    | _ => cases h
  | .string s, b, o, h => by
    cases b with
    | string t =>
      cases h
      exact beq_eq_compare_beq s t
    | _ => cases h
  | .list xs, b, o, h => by
    cases b with
    | list ys => exact sameItems_of_compareItems? xs ys h
    | _ => cases h
  | .map _, b, o, h => by cases b <;> cases h
  | .object _ _, b, o, h => by cases b <;> cases h

/-- Lists that can be compared are the same if neither is greater. -/
theorem sameItems_of_compareItems? : (xs ys : List Value) → {o : Ordering} →
    compareItems? xs ys = some o → sameItems xs ys = (o == .eq)
  | [], ys, o, h => by
    cases ys with
    | nil =>
      cases h
      rfl
    | cons y ys =>
      cases h
      rfl
  | x :: xs, ys, o, h => by
    cases ys with
    | nil =>
      cases h
      rfl
    | cons y ys =>
      rw [compareItems?] at h
      cases hfirst : x.compare? y with
      | none =>
        rw [hfirst] at h
        cases h
      | some p =>
        have hsame := same_of_compare? x y hfirst
        rw [hfirst] at h
        rw [sameItems, hsame]
        -- Equal first items leave it to the others; items that differ decide both.
        cases p with
        | eq => exact sameItems_of_compareItems? xs ys h
        | lt =>
          cases h
          rfl
        | gt =>
          cases h
          rfl

end

/-! ## What a rule finds -/

/-- **Equality and order agree.** Equality is symmetric, the order of two values turns round when
they change places, and values that have an order are equal exactly if neither comes first. So a rule
that compares two values that have an order finds exactly one of `<`, `==` and `>` true, and `<=` and
`>=` are `<` and `>` or `==`; for values without an order it finds all four orderings false. -/
theorem order_agrees_with_same (a b : Value) :
    a.same b = b.same a ∧
      b.compare? a = (a.compare? b).map Ordering.swap ∧
      (∀ o, a.compare? b = some o → (o = .eq ↔ a.same b = true)) ∧
      ∀ (context : Context) (hour : Hour) (left right : Expr),
        left.evaluate context hour = .ok a → right.evaluate context hour = .ok b →
        ∃ holds : Comparison → Bool,
          (∀ op, (Expr.comparison op left right).evaluate context hour = .ok (.bool (holds op))) ∧
          (a.compare? b ≠ none →
            (holds .lt).toNat + (holds .eq).toNat + (holds .gt).toNat = 1 ∧
              holds .le = (holds .lt || holds .eq) ∧ holds .ge = (holds .gt || holds .eq)) ∧
          (a.compare? b = none → ∀ op ∈ [Comparison.lt, .gt, .le, .ge], holds op = false) := by
  refine ⟨same_comm a b, compare?_swap a b, ?_, ?_⟩
  · intro o h
    rw [same_of_compare? a b h, beq_iff_eq]
  · intro context hour left right hleft hright
    refine ⟨fun op => op.holds a b, ?_, ?_, ?_⟩
    · intro op
      rw [Expr.evaluate, hleft, hright]
    · intro hordered
      obtain ⟨o, h⟩ := Option.ne_none_iff_exists'.mp hordered
      -- What each sign says now depends on the order alone.
      simp only [Comparison.holds, h, same_of_compare? a b h]
      cases o <;> decide
    · intro h op hop
      simp only [List.mem_cons, List.not_mem_nil, or_false] at hop
      rcases hop with rfl | rfl | rfl | rfl <;> simp [Comparison.holds, h]

/-- Two lists of lists, in which the first numbers are equal across types and the second ones
decide. -/
theorem order_agrees_with_same_nested :
    let a : Value := .list [.list [.int 1, .float (.ofFraction false 5 2)], .string "b"]
    let b : Value := .list [.list [.float (.ofFraction false 1 1), .int 3], .null]
    let context : Context := ⟨[("left", a), ("right", b)]⟩
    a.compare? b = some .lt ∧ b.compare? a = some .gt ∧
      (Expr.path "left").evaluate context 0 = .ok a ∧
      (Expr.path "right").evaluate context 0 = .ok b ∧
      ∃ holds : Comparison → Bool,
        (∀ op, (Expr.comparison op (.path "left") (.path "right")).evaluate context 0 =
          .ok (.bool (holds op))) ∧
        (holds .lt).toNat + (holds .eq).toNat + (holds .gt).toNat = 1 := by
  intro a b context
  have hlt : a.compare? b = some .lt := by decide +kernel
  have hleft : (Expr.path "left").evaluate context 0 = .ok a := rfl
  have hright : (Expr.path "right").evaluate context 0 = .ok b := rfl
  obtain ⟨-, hswap, -, hrules⟩ := order_agrees_with_same a b
  obtain ⟨holds, hevaluate, hone, -⟩ := hrules context 0 _ _ hleft hright
  rw [hlt] at hswap
  exact ⟨hlt, hswap, hleft, hright, holds, hevaluate, (hone (by simp [hlt])).1⟩

end Value

end AccessRules
