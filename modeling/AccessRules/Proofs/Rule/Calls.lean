import AccessRules.Rule.Evaluate
import AccessRules.Rule.Violation

/-!
# The calls in a rule

A rule can fail only through its calls: a name that no function has, or the wrong number of
arguments. `Expr.calls` lists every call that stands in a rule, those among the arguments of other
calls included. Which operands of `and` and `or` are looked at plays no part: a call behind an operand
that is never reached is listed too.

> `resolve_eq_ok_iff`: a call resolves to a function of its name with its number of arguments.
> `argCalls_subset_calls`: the calls among the arguments of a listed call are listed.
-/

namespace AccessRules.Rule

namespace Function

/-- A call resolves to a function of its name that takes as many arguments as there are. -/
theorem resolve_eq_ok_iff {name : String} {args : Nat} {f : Function} :
    resolve name args = .ok f ↔ ofName? name = some f ∧ args = f.arity := by
  unfold resolve
  cases h : ofName? name with
  | none => simp
  | some g =>
    dsimp only
    by_cases harity : args = g.arity
    · rw [if_pos harity]
      constructor
      · intro hf
        cases hf
        exact ⟨rfl, harity⟩
      · intro h
        obtain ⟨hg, -⟩ := h
        rw [Option.some.inj hg]
    · rw [if_neg harity]
      constructor
      · intro hf
        cases hf
      · intro h
        obtain ⟨hg, hargs⟩ := h
        cases hg
        exact absurd hargs harity

end Function

/-- A call has no violation of its own exactly when it resolves. -/
theorem callViolations_eq_nil_iff {name : String} {args : Nat} :
    callViolations name args = [] ↔ ∃ f, Function.resolve name args = .ok f := by
  unfold callViolations
  cases h : Function.resolve name args with
  | ok f => simp
  | error fault => simp

namespace Expr

mutual

/-- The calls in a rule, each with its name and arguments, from left to right and a call before
those among its arguments. -/
def calls : Expr → List (String × List Expr)
  | .literal _ => []
  | .path _ => []
  | .comparison _ left right => calls left ++ calls right
  | .connective _ left right => calls left ++ calls right
  | .not operand => calls operand
  | .call name args => (name, args) :: argCalls args

/-- The calls in some arguments. -/
def argCalls : List Expr → List (String × List Expr)
  | [] => []
  | arg :: args => calls arg ++ argCalls args

end

/-! ## The value of a call -/

/-- The value of a call is the answer of its function to the values of its arguments. -/
theorem evaluate_call {context : Context} {hour : Hour} {name : String} {args : List Expr}
    {f : Function} {values : List Value} (hresolve : Function.resolve name args.length = .ok f)
    (hargs : evaluateArgs context hour args = .ok values) :
    (Expr.call name args).evaluate context hour = .ok (.bool (f.apply context hour values)) := by
  rw [evaluate, hresolve]
  dsimp only
  rw [hargs]

/-! ## Calls among the arguments of a listed call -/

mutual

/-- The calls among the arguments of a call in a rule are calls in the rule. -/
theorem argCalls_subset_calls {name : String} {args : List Expr} :
    (e : Expr) → (name, args) ∈ e.calls → argCalls args ⊆ e.calls
  | .literal _, h => by
    rw [calls] at h
    cases h
  | .path _, h => by
    rw [calls] at h
    cases h
  | .comparison _ left right, h => by
    rw [calls] at h ⊢
    rcases List.mem_append.mp h with hl | hr
    · exact List.subset_append_of_subset_left _ (argCalls_subset_calls left hl)
    · exact List.subset_append_of_subset_right _ (argCalls_subset_calls right hr)
  | .connective _ left right, h => by
    rw [calls] at h ⊢
    rcases List.mem_append.mp h with hl | hr
    · exact List.subset_append_of_subset_left _ (argCalls_subset_calls left hl)
    · exact List.subset_append_of_subset_right _ (argCalls_subset_calls right hr)
  | .not operand, h => by
    rw [calls] at h ⊢
    exact argCalls_subset_calls operand h
  | .call _ inner, h => by
    rw [calls] at h ⊢
    -- The call that is looked for is this one, or one among its arguments.
    rcases List.mem_cons.mp h with heq | hinner
    · cases heq
      exact List.subset_cons_self _ _
    · exact List.subset_cons_of_subset _ (argCalls_subset_argCalls inner hinner)

/-- The calls inside the arguments of a call come up among the calls that it comes up with. -/
theorem argCalls_subset_argCalls {name : String} {args : List Expr} :
    (others : List Expr) → (name, args) ∈ argCalls others → argCalls args ⊆ argCalls others
  | [], h => by
    rw [argCalls] at h
    cases h
  | other :: others, h => by
    rw [argCalls] at h ⊢
    rcases List.mem_append.mp h with hother | hothers
    · exact List.subset_append_of_subset_left _ (argCalls_subset_calls other hother)
    · exact List.subset_append_of_subset_right _ (argCalls_subset_argCalls others hothers)

end

end Expr

end AccessRules.Rule
