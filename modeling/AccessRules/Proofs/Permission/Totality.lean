import AccessRules.Proofs.Rule.Strict
import AccessRules.Proofs.Rule.Violations
import AccessRules.Schema.CollectionSet

/-!
# Authorization by checked rules never fails

A set of collections is checked before it is used. The check looks at the rules alone, while a
request brings data of any shape; the main statement is that nothing in that data can make a
decision fail once the check has passed:

> `authorize_ok_of_failures_eq_nil`: every operation on every collection of a set without failures
> is decided, in every context and at every hour.

Behind it stands `Guard.CallsResolve`, what a guard that passed the check is known to satisfy: it is
no rule at all, or a rule that can be read and whose calls all name a function and give it as many
values as it takes.
-/

namespace AccessRules

open Rule

/-- What makes a guard safe to decide by: a rule can be read, and each of its calls names a
function and, whatever the context, hands it exactly as many values as it takes. -/
def Guard.CallsResolve : Guard → Prop
  | .denyAll => True
  | .allowAll => True
  | .rule source => ∃ e, parse source = .ok e ∧
      ∀ c ∈ e.calls, ∃ f, Function.resolve c.1 c.2.length = .ok f ∧
        ∀ context hour, ∃ values,
          Expr.evaluateArgs context hour c.2 = .ok values ∧ values.length = f.arity

/-- A rule that passes its check can be read and has no violations. -/
theorem Guard.exists_rule_of_check {source : String} {operation : Operation} {fields : List String}
    (h : (Guard.rule source).check operation fields = .ok ()) :
    ∃ e, parse source = .ok e ∧ e.violations operation fields = [] :=
  Guard.check_rule_eq_ok_iff.mp h

/-- A guard that passes its check is safe to decide by. -/
theorem Guard.callsResolve_of_check {guard : Guard} {operation : Operation} {fields : List String}
    (h : guard.check operation fields = .ok ()) : guard.CallsResolve := by
  cases guard with
  | denyAll => trivial
  | allowAll => trivial
  | rule source =>
    obtain ⟨e, hparse, hviolations⟩ := Guard.exists_rule_of_check h
    refine ⟨e, hparse, ?_⟩
    intro c hc
    obtain ⟨f, hf⟩ := Expr.resolve_of_violations_eq_nil hviolations hc
    refine ⟨f, hf, ?_⟩
    intro context hour
    -- The arguments may hold calls themselves; those are listed in the rule too.
    obtain ⟨values, hvalues, hlen⟩ := Expr.exists_evaluateArgs context hour c.2
      fun d hd => Expr.resolve_of_violations_eq_nil hviolations
        (Expr.argCalls_subset_calls e hc hd)
    exact ⟨values, hvalues, hlen.trans (Function.resolve_eq_ok_iff.mp hf).2⟩

/-- A guard that is safe to decide by lets a request through or not, but never fails. -/
theorem Guard.exists_admits {guard : Guard} (h : guard.CallsResolve) (context : Context)
    (hour : Hour) : ∃ b, guard.admits context hour = .ok b := by
  cases guard with
  | denyAll => exact ⟨false, rfl⟩
  | allowAll => exact ⟨true, rfl⟩
  | rule source =>
    obtain ⟨e, hparse, hcalls⟩ := h
    obtain ⟨v, hv⟩ := Expr.exists_evaluate context hour e fun c hc => by
      obtain ⟨f, hf, -⟩ := hcalls c hc
      exact ⟨f, hf⟩
    refine ⟨v.isTruthy, ?_⟩
    simp only [Guard.admits, hparse, Expr.holds, hv]
    rfl

/-- Where the guard of an operation does not fail, neither does the decision. -/
theorem RuleSet.exists_decide {rules : RuleSet} {operation : Operation} {context : Context}
    {hour : Hour} (h : ∃ b, (rules.guard operation).admits context hour = .ok b) :
    ∃ d, rules.decide operation context hour = .ok d := by
  obtain ⟨b, hb⟩ := h
  unfold RuleSet.decide
  split
  · exact ⟨_, rfl⟩
  · rw [hb]
    cases b with
    | true => exact ⟨.allow, rfl⟩
    | false => exact ⟨.deny (.ruleFalse operation), rfl⟩

/-- In a rule set without failures the guard of every operation passes its check. -/
theorem RuleSet.check_of_failures_eq_nil {rules : RuleSet} {fields : List String}
    (h : rules.failures fields = []) (operation : Operation) :
    (rules.guard operation).check operation fields = .ok () := by
  have hmem : operation ∈ Operation.all := by
    cases operation <;> decide
  have hnone := List.filterMap_eq_nil_iff.mp h operation hmem
  cases hcheck : (rules.guard operation).check operation fields with
  | ok u => rfl
  | error e => simp [hcheck] at hnone

namespace Schema

/-- In a set without failures every collection is without failures. -/
theorem CollectionSet.failures_eq_nil_of_mem {s : CollectionSet} (h : s.failures = [])
    {c : Collection} (hc : c ∈ s.collections.values) : c.failures = [] := by
  have hnil := List.flatMap_eq_nil_iff.mp h c hc
  exact List.map_eq_nil_iff.mp hnil

/-- **Checked rules always decide.** In a set of collections without failures, each operation on
each collection is guarded by no rule, or by one that can be read and whose calls all resolve with
the right number of values; and in every context, at every hour, it is decided. -/
theorem authorize_ok_of_failures_eq_nil {s : CollectionSet} (h : s.failures = [])
    {c : Collection} (hc : c ∈ s.collections.values) (operation : Operation) :
    (c.rules.guard operation).CallsResolve ∧
      ∀ context hour, ∃ d, c.authorize operation context hour = .ok d := by
  have hsafe : (c.rules.guard operation).CallsResolve :=
    Guard.callsResolve_of_check
      (RuleSet.check_of_failures_eq_nil (CollectionSet.failures_eq_nil_of_mem h hc) operation)
  refine ⟨hsafe, ?_⟩
  intro context hour
  exact RuleSet.exists_decide (Guard.exists_admits hsafe context hour)

/-- A collection with a call on each side of a connective, a public view and a macro. -/
theorem authorize_ok_posts :
    let posts : Collection := ⟨"posts", Field.systemFields ++ [⟨"title", .string, true, false⟩],
      ⟨some "contains(title, 'a') or not @has_role(@request.auth.role)", some "", none, none,
        some "@owns_record()"⟩⟩
    let s : CollectionSet := ⟨[("posts", posts)]⟩
    s.failures = [] ∧ posts ∈ s.collections.values ∧
      ∀ operation context hour, ∃ d, posts.authorize operation context hour = .ok d := by
  intro posts s
  have h : s.failures = [] := List.isEmpty_iff.mp (by decide +kernel)
  have hposts : posts ∈ s.collections.values := List.mem_singleton_self posts
  refine ⟨h, hposts, ?_⟩
  intro operation
  exact (authorize_ok_of_failures_eq_nil h hposts operation).2

end Schema

end AccessRules
