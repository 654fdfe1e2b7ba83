import AccessRules.Value.Compare

/-!
# Equality of values is symmetric

> `same_comm`: `a` and `b` are the same exactly when `b` and `a` are.

Equality looks at the two values side by side, so the induction runs over the first one and lets
the second one vary.
-/

namespace AccessRules

namespace Number.Binary64

/-- Numbers are compared in both directions alike. -/
theorem same_comm (x y : Binary64) : x.same y = y.same x := by
  unfold same compare?
  cases hx : x.scaled with
  | none => cases y.scaled <;> rfl
  | some a =>
    cases hy : y.scaled with
    | none => rfl
    | some b =>
      show (compare a b == .eq) = (compare b a == .eq)
      by_cases hab : a = b
      · rw [hab]
      · have hab' : compare a b ≠ .eq := fun h => hab (Int.compare_eq_eq.mp h)
        have hba' : compare b a ≠ .eq := fun h => hab (Int.compare_eq_eq.mp h).symm
        rw [beq_false_of_ne hab', beq_false_of_ne hba']

end Number.Binary64

namespace Value

mutual

/-- **Equality is symmetric.** -/
theorem same_comm : (a b : Value) → a.same b = b.same a
  | .null, b => by cases b <;> rfl
  | .bool a, b => by
    cases b with
    | bool b => exact Bool.beq_comm
    | _ => rfl
  | .int a, b => by
    cases b with
    | int b => exact BEq.comm
    | float y => exact Number.Binary64.same_comm _ _
    | _ => rfl
  | .float x, b => by
    cases b with
    | int b => exact Number.Binary64.same_comm _ _
    | float y => exact Number.Binary64.same_comm _ _
    | _ => rfl
  | .string s, b => by
    cases b with
    | string t => exact BEq.comm
    | _ => rfl
  | .list xs, b => by
    cases b with
    | list ys => exact sameItems_comm xs ys
    | _ => rfl
  | .map xs, b => by
    cases b with
    | map ys => exact sameEntries_comm xs ys
    | _ => rfl
  | .object i attributes, b => by
    cases b with
    | object j attributes' => exact BEq.comm
    | _ => rfl

/-- Lists are compared in both directions alike, item by item. -/
theorem sameItems_comm : (xs ys : List Value) → sameItems xs ys = sameItems ys xs
  | [], ys => by cases ys <;> rfl
  | x :: xs, ys => by
    cases ys with
    | nil => rfl
    | cons y ys =>
      rw [sameItems, sameItems, same_comm x y, sameItems_comm xs ys]

/-- Maps are compared in both directions alike, entry by entry. -/
theorem sameEntries_comm : (xs ys : List (String × Value)) → sameEntries xs ys = sameEntries ys xs
  | [], ys => by cases ys <;> rfl
  | (j, x) :: xs, ys => by
    cases ys with
    | nil => rfl
    | cons y ys =>
      obtain ⟨k, y⟩ := y
      have hkeys : (j == k) = (k == j) := BEq.comm
      rw [sameEntries, sameEntries, hkeys, same_comm x y, sameEntries_comm xs ys]

end

end Value

end AccessRules
