import AccessRules.Proofs.Rule.Calls
import AccessRules.Proofs.Rule.Paths
import AccessRules.Proofs.Sql.Parameters

/-!
# What a condition means

A condition has a value once its columns and parameters have values. Compiling is right when that
value is the one that the evaluator gives to the rule:

> `evaluate_of_compile`: a rule without calls has the value of its condition, wherever the columns
> and parameters have the values of the paths and constants that they stand for.

The grouping of the condition plays no part here: this is about the tree, and what a text says about
its tree is a matter of its own.
-/

namespace AccessRules.Sql

open Rule

/-! ## The value of a condition -/

/-- What the names in a condition stand for. -/
structure Env where
  column : String → Value
  parameter : Parameter → Value

/-- What a path stands for once it has been compiled. -/
def Env.variable (env : Env) : Variable → Value
  | .auth field => env.parameter (.auth field)
  | .data field => env.parameter (.data field)
  | .field name => env.column name

/-- What a connective makes of two truth values. -/
def join (op : Connective) (left right : Bool) : Bool :=
  match op with
  | .and => left && right
  | .or => left || right

/-- Whether a text matches a pattern made from a part; other values never do. -/
def Match.holds (pattern : Match) : Value → Value → Bool
  | .string text, .string part =>
    match pattern with
    | .anywhere => Value.occursIn part.toList text.toList
    | .atStart => part.toList.isPrefixOf text.toList
    | .atEnd => part.toList.isSuffixOf text.toList
  | _, _ => false

/-- The value of a condition. -/
def Condition.value (env : Env) : Condition → Value
  | .column name => env.column name
  | .parameter p => env.parameter p
  | .not c => .bool !(c.value env).isTruthy
  | .connective op left right =>
    .bool (join op (left.value env).isTruthy (right.value env).isTruthy)
  | .comparison op left right => .bool (op.holds (left.value env) (right.value env))
  | .oneOf c numbers =>
    .bool (numbers.any fun n => (env.parameter (.constant n)).same (c.value env))
  | .never => .bool false
  | .like pattern text part => .bool (pattern.holds (text.value env) (part.value env))

/-! ## The evaluator agrees -/

variable {auth : Auth} {b b' : Bindings} {c : Condition} {env : Env} {context : Context}
  {hour : Hour}

/-- The parameters of constants have the values that they are bound to. -/
def Env.Knows (env : Env) (b : Bindings) : Prop :=
  ∀ n v, (.constant n, v) ∈ b.bound → env.parameter (.constant n) = v

/-- Values that are right for all that is bound later are right for what was bound before. -/
theorem Env.Knows.of_grows (h : env.Knows b') (hgrows : Grows auth b b') : env.Knows b := by
  intro n v hmem
  exact h n v (hgrows.suffix.mem hmem)

/-- The numbers of the items of a list stand for the items. -/
theorem values_of_compileItems : (b : Bindings) → (items : List Literal) →
    env.Knows (compileItems b items).2 →
    (compileItems b items).1.map (fun n => env.parameter (.constant n)) =
      Literal.itemsToValues items
  | b, [], _ => rfl
  | b, item :: items, h => by
    have hrest := values_of_compileItems (b.bindConstant item.toValue) items h
    have hfirst : env.parameter (.constant b.constants) = item.toValue := by
      refine h b.constants item.toValue ?_
      -- The first item is bound before the others, and their binds leave it in place.
      have hgrows : Grows .empty (b.bindConstant item.toValue) _ := compileItems_grows _ items
      exact hgrows.suffix.mem (List.mem_cons_self ..)
    rw [compileItems, Literal.itemsToValues, ← hrest, ← hfirst]
    rfl

/-- **The evaluator gives a rule the value of its condition.** -/
theorem evaluate_of_compile : (e : Expr) → {b b' : Bindings} → {c : Condition} → e.calls = [] →
    (∀ path ∈ e.paths, context.resolve path = env.variable (.ofPath path)) →
    compile auth b e = .ok (c, b') → env.Knows b' →
    e.evaluate context hour = .ok (c.value env)
  | .literal value, b, b', c, _, _, h, hknows => by
    obtain ⟨-, rfl, rfl⟩ := compile_literal_eq_ok_iff.mp h
    rw [Expr.evaluate, Condition.value, hknows b.constants value.toValue (List.mem_cons_self ..)]
  | .path name, b, b', c, _, hpaths, h, _ => by
    have hname := hpaths name (by rw [Expr.paths]; exact List.mem_singleton_self _)
    rw [Expr.evaluate, hname]
    rcases compilePath_eq_ok_iff.mp (compile_path_eq_ok_iff.mp h) with
      ⟨field, hof, -, rfl, -⟩ | ⟨field, hof, -, rfl, -⟩ | ⟨field, hof, -, rfl, -⟩
    · rw [hof, Env.variable, Condition.value]
    · rw [hof, Env.variable, Condition.value]
    · rw [hof, Env.variable, Condition.value]
  | .comparison op left right, b, b', c, hcalls, hpaths, h, hknows => by
    rw [Expr.calls, List.append_eq_nil_iff] at hcalls
    rw [Expr.paths] at hpaths
    have hpathsLeft : ∀ path ∈ left.paths, _ := fun path hp =>
      hpaths path (List.mem_append_left _ hp)
    have hpathsRight : ∀ path ∈ right.paths, _ := fun path hp =>
      hpaths path (List.mem_append_right _ hp)
    by_cases hop : op = .member
    · rw [hop] at h
      obtain ⟨l, b₁, hleft, hright⟩ := compile_member_eq_ok_iff.mp h
      -- The items are bound behind the constants of the operand, which keep their values.
      have hgrows : Grows auth b₁ b' := compileMembership_grows hright
      have hl := evaluate_of_compile left hcalls.1 hpathsLeft hleft (hknows.of_grows hgrows)
      obtain ⟨items, rfl, ⟨rfl, rfl, -⟩ | ⟨-, rfl, rfl⟩⟩ := compileMembership_eq_ok_iff.mp hright
      · rw [Expr.evaluate, hl, Expr.evaluate, hop]
        rfl
      · have hitems := values_of_compileItems b₁ items hknows
        rw [Expr.evaluate, hl, Expr.evaluate, hop]
        show Except.ok (Value.bool ((Literal.itemsToValues items).any fun x => x.same _)) = _
        rw [← hitems, List.any_map, Condition.value]
        rfl
    · obtain ⟨l, b₁, hleft, r, b₂, hright, rfl, rfl⟩ := (compile_comparison_eq_ok_iff hop).mp h
      have hl := evaluate_of_compile left hcalls.1 hpathsLeft hleft
        (hknows.of_grows (compile_grows right hright))
      have hr := evaluate_of_compile right hcalls.2 hpathsRight hright hknows
      rw [Expr.evaluate, hl, hr, Condition.value]
  | .connective op left right, b, b', c, hcalls, hpaths, h, hknows => by
    rw [Expr.calls, List.append_eq_nil_iff] at hcalls
    rw [Expr.paths] at hpaths
    obtain ⟨l, b₁, hleft, r, b₂, hright, rfl, rfl⟩ := compile_connective_eq_ok_iff.mp h
    have hl := evaluate_of_compile left hcalls.1 (fun path hp =>
      hpaths path (List.mem_append_left _ hp)) hleft (hknows.of_grows (compile_grows right hright))
    have hr := evaluate_of_compile right hcalls.2 (fun path hp =>
      hpaths path (List.mem_append_right _ hp)) hright hknows
    rw [Expr.evaluate, hl, hr, Condition.value]
    -- A left side that decides makes no difference to the two truth values taken together.
    cases op <;> cases htruthy : (l.value env).isTruthy <;> simp [join, htruthy]
  | .not operand, b, b', c, hcalls, hpaths, h, hknows => by
    obtain ⟨d, b₁, hoperand, rfl, rfl⟩ := compile_not_eq_ok_iff.mp h
    rw [Expr.calls] at hcalls
    rw [Expr.paths] at hpaths
    rw [Expr.evaluate, evaluate_of_compile operand hcalls hpaths hoperand hknows, Condition.value]
  | .call name args, b, b', c, hcalls, _, _, _ => by
    rw [Expr.calls] at hcalls
    cases hcalls

end AccessRules.Sql
