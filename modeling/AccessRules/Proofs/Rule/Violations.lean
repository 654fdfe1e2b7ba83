import AccessRules.Permission.Guard
import AccessRules.Proofs.Rule.Calls
import AccessRules.Proofs.Rule.Paths

/-!
# What the validator finds

The validator looks at the paths and the calls of a rule, wherever they stand, and at nothing else:

> `mem_violations_iff`: a violation is reported exactly when some path or some call of the rule has
> it.
> `violations_eq_nil_iff`: nothing is reported exactly when every path and every call is in order.
> `check_rule_eq_ok_iff`: a guard passes if its rule can be read and nothing is reported of it.
-/

namespace AccessRules.Rule.Expr

variable {operation : Operation} {fields : List String} {v : Violation}

/-- Some path or some call has the violation. -/
def Exhibited (operation : Operation) (fields : List String) (paths : List String)
    (calls : List (String × List Expr)) (v : Violation) : Prop :=
  (∃ path ∈ paths, v ∈ pathViolations operation fields path) ∨
    ∃ c ∈ calls, v ∈ callViolations c.1 c.2.length

/-- What two groups of paths and calls exhibit together, one of them does. -/
theorem exhibited_append_iff {paths paths' : List String} {calls calls' : List (String × List Expr)} :
    Exhibited operation fields (paths ++ paths') (calls ++ calls') v ↔
      Exhibited operation fields paths calls v ∨ Exhibited operation fields paths' calls' v := by
  simp only [Exhibited, List.mem_append, or_and_right, exists_or]
  exact or_or_or_comm

mutual

/-- What is found in a rule is wrong with one of its paths or calls. -/
theorem mem_occurrences_iff :
    (e : Expr) → (v ∈ e.occurrences operation fields ↔ Exhibited operation fields e.paths e.calls v)
  | .literal _ => by simp [occurrences, paths, calls, Exhibited]
  | .path name => by simp [occurrences, paths, calls, Exhibited]
  | .comparison _ left right => by
    rw [occurrences, paths, calls, List.mem_append, exhibited_append_iff, mem_occurrences_iff left,
      mem_occurrences_iff right]
  | .connective _ left right => by
    rw [occurrences, paths, calls, List.mem_append, exhibited_append_iff, mem_occurrences_iff left,
      mem_occurrences_iff right]
  | .not operand => by rw [occurrences, paths, calls, mem_occurrences_iff operand]
  | .call name args => by
    -- The call itself comes before the calls among its arguments and has no path of its own.
    have hown : Exhibited operation fields ([] ++ argPaths args) ([(name, args)] ++ argCalls args) v ↔
        v ∈ callViolations name args.length ∨
          Exhibited operation fields (argPaths args) (argCalls args) v := by
      rw [exhibited_append_iff]
      simp [Exhibited]
    rw [occurrences, paths, calls, List.mem_append, mem_argOccurrences_iff args]
    exact hown.symm

theorem mem_argOccurrences_iff :
    (args : List Expr) → (v ∈ argOccurrences operation fields args ↔
      Exhibited operation fields (argPaths args) (argCalls args) v)
  | [] => by simp [argOccurrences, argPaths, argCalls, Exhibited]
  | arg :: args => by
    rw [argOccurrences, argPaths, argCalls, List.mem_append, exhibited_append_iff,
      mem_occurrences_iff arg, mem_argOccurrences_iff args]

end

/-- **The violations of a rule are those of its paths and calls.** -/
theorem mem_violations_iff {e : Expr} :
    v ∈ e.violations operation fields ↔ Exhibited operation fields e.paths e.calls v := by
  rw [violations, List.mem_eraseDups, mem_occurrences_iff]

/-- The fields of the caller that are reported are those that a path asks for and no rule may use. -/
theorem authField_mem_violations_iff {e : Expr} {field : String} :
    .authField field ∈ e.violations operation fields ↔
      ∃ path ∈ e.paths, Variable.ofPath path = .auth field ∧ Variable.isAuthField field = false := by
  have hcall : ∀ name args, Violation.authField field ∉ callViolations name args := by
    intro name args
    unfold callViolations
    cases Function.resolve name args <;> simp
  have hpath : ∀ path, Violation.authField field ∈ pathViolations operation fields path ↔
      Variable.ofPath path = .auth field ∧ Variable.isAuthField field = false := by
    intro path
    unfold pathViolations
    cases Variable.ofPath path with
    | auth other => grind
    | data other => simp
    | field name => simp
  rw [mem_violations_iff, Exhibited]
  simp only [hpath, hcall, and_false, exists_false, or_false]

/-- The faults of calls that are reported are those of the calls in the rule. -/
theorem call_mem_violations_iff {e : Expr} {fault : CallFault} :
    .call fault ∈ e.violations operation fields ↔
      ∃ c ∈ e.calls, Function.resolve c.1 c.2.length = .error fault := by
  have hpath : ∀ path, Violation.call fault ∉ pathViolations operation fields path := by
    intro path
    unfold pathViolations
    cases Variable.ofPath path <;> simp
  have hcall : ∀ name args, Violation.call fault ∈ callViolations name args ↔
      Function.resolve name args = .error fault := by
    intro name args
    unfold callViolations
    cases Function.resolve name args <;> simp [eq_comm]
  rw [mem_violations_iff, Exhibited]
  simp only [hpath, hcall, and_false, exists_false, false_or]

/-- A rule without violations has paths without any and calls that resolve. -/
theorem violations_eq_nil_iff {e : Expr} :
    e.violations operation fields = [] ↔
      (∀ path ∈ e.paths, pathViolations operation fields path = []) ∧
        ∀ c ∈ e.calls, ∃ f, Function.resolve c.1 c.2.length = .ok f := by
  simp only [← callViolations_eq_nil_iff, List.eq_nil_iff_forall_not_mem, mem_violations_iff,
    Exhibited, not_or, not_exists, not_and]
  constructor
  · intro h
    exact ⟨fun path hpath v => (h v).1 path hpath, fun c hc v => (h v).2 c hc⟩
  · intro h v
    exact ⟨fun path hpath => h.1 path hpath v, fun c hc => h.2 c hc v⟩

/-- Every path in a rule without violations is without violations. -/
theorem pathViolations_of_violations_eq_nil {e : Expr} (h : e.violations operation fields = [])
    {path : String} (hpath : path ∈ e.paths) : pathViolations operation fields path = [] :=
  (violations_eq_nil_iff.mp h).1 path hpath

/-- Every call in a rule without violations resolves. -/
theorem resolve_of_violations_eq_nil {e : Expr} (h : e.violations operation fields = [])
    {c : String × List Expr} (hc : c ∈ e.calls) :
    ∃ f, Function.resolve c.1 c.2.length = .ok f :=
  (violations_eq_nil_iff.mp h).2 c hc

end AccessRules.Rule.Expr

namespace AccessRules

open Rule

/-- A rule passes its check exactly if it can be read and has no violations. -/
theorem Guard.check_rule_eq_ok_iff {source : String} {operation : Operation} {fields : List String} :
    (Guard.rule source).check operation fields = .ok () ↔
      ∃ e, parse source = .ok e ∧ e.violations operation fields = [] := by
  rw [check]
  cases hparse : parse source with
  | error e => simp
  | ok e => cases hviolations : e.violations operation fields <;> simp [hviolations]

end AccessRules
