import AccessRules.Proofs.Sql.Placeholders
import AccessRules.Proofs.Sql.Sentence

/-!
# The text of a filter does not depend on data

A database prepares a query from its text and the names of its parameters, before it sees a value.
Neither depends on the data of a rule or on who is calling:

> `filter_independent_of_data`: rules that differ in their constants only have filters with the same
> text and the same parameter names for any two callers, or fail for the same reason; and one rule
> has the very same filter for callers that agree on the fields that a rule may use.

That the conditions are the same is known from `alike_compile`. The names are those of the constants,
which are numbered through, and of the fields that the rule shows or drops, in which no constant
has a part.
-/

namespace AccessRules

open Rule

namespace Rule.Expr

/-! ## What a rule without its constants binds -/

/-- A constant without its content is still a constant. -/
theorem literalOrigins_blank (value : Literal) : literalOrigins value.blank = literalOrigins value := by
  cases value <;> rfl

theorem itemOrigins_blank (e : Expr) : itemOrigins e.blank = itemOrigins e := by
  cases e with
  | literal value =>
    rw [blank]
    cases value with
    | list items => simp [Literal.blank, itemOrigins]
    | _ => rfl
  | _ => simp [blank, itemOrigins]

mutual

/-- What a rule shows does not depend on what its constants are. -/
theorem shown_blank : (e : Expr) → e.blank.shown = e.shown
  | .literal value => by rw [blank, shown, shown, literalOrigins_blank]
  | .path name => by rw [blank]
  | .comparison op left right => by
    rw [blank, shown, shown, shown_blank left, shown_blank right, itemOrigins_blank]
  | .connective op left right => by
    rw [blank, shown, shown, shown_blank left, shown_blank right]
  | .not operand => by rw [blank, shown, shown, shown_blank operand]
  | .call name args => by rw [blank, shown, shown, argShown_blank args]

theorem argShown_blank : (args : List Expr) → argShown (blankArgs args) = argShown args
  | [] => by rw [blankArgs]
  | arg :: args => by rw [blankArgs, argShown, argShown, shown_blank arg, argShown_blank args]

end

mutual

/-- What a rule drops does not depend on what its constants are, for an empty list has none. -/
theorem dropped_blank : (e : Expr) → e.blank.dropped = e.dropped
  | .literal value => by rw [blank, dropped, dropped]
  | .path name => by rw [blank]
  | .comparison op left right => by
    rw [blank, dropped, dropped, dropped_blank left, dropped_blank right, shown_blank left,
      itemOrigins_blank]
  | .connective op left right => by
    rw [blank, dropped, dropped, dropped_blank left, dropped_blank right]
  | .not operand => by rw [blank, dropped, dropped, dropped_blank operand]
  | .call name args => by rw [blank, dropped, dropped, argDropped_blank args]

theorem argDropped_blank : (args : List Expr) → argDropped (blankArgs args) = argDropped args
  | [] => by rw [blankArgs]
  | arg :: args => by
    rw [blankArgs, argDropped, argDropped, dropped_blank arg, argDropped_blank args]

end

end Rule.Expr

namespace Sql

variable {auth auth' : Auth} {b b' : Bindings} {c c' : Condition}

/-! ## Which parameters are bound -/

/-- The constants are numbered through, and each number is bound. -/
theorem constant_mem_parameters_iff {e : Expr} {n : Nat}
    (h : compile auth .empty e = .ok (c, b)) : .constant n ∈ b.parameters ↔ n < b.constants := by
  rw [← List.count_pos_iff, (compile_grows e h).count_constant]
  by_cases hn : n < b.constants
  · simp [hn]
  · simp [hn]

/-- A field is bound when the rule shows or drops it. -/
theorem field_mem_parameters_iff {e : Expr} {p : Parameter} (hp : p.origin ≠ .constant)
    (h : compile auth .empty e = .ok (c, b)) :
    p ∈ b.parameters ↔ p.origin ∈ e.shown ++ e.dropped := by
  obtain ⟨hidden, hbound, hshown, hdropped⟩ := parameters_of_compile e h
  have hempty : Bindings.empty.parameters = [] := rfl
  rw [hempty, List.append_nil] at hbound
  rw [hbound.mem_iff, ← hshown, ← hdropped, ← List.map_append, List.mem_map]
  constructor
  · intro hmem
    exact ⟨p, hmem, rfl⟩
  · intro hmem
    obtain ⟨q, hq, horigin⟩ := hmem
    rw [Parameter.eq_of_origin_eq horigin.symm hp]
    exact hq

/-- Rules that differ in their constants only bind parameters of the same names. -/
theorem mem_keys_iff_of_blank_eq {e e' : Expr} (hblank : e'.blank = e.blank)
    (h : compile auth .empty e = .ok (c, b)) (h' : compile auth' .empty e' = .ok (c', b'))
    (hconstants : b.constants = b'.constants) (name : String) :
    name ∈ b.params.keys ↔ name ∈ b'.params.keys := by
  have hshown : e'.shown = e.shown := by rw [← e'.shown_blank, hblank, e.shown_blank]
  have hdropped : e'.dropped = e.dropped := by rw [← e'.dropped_blank, hblank, e.dropped_blank]
  have hsame : ∀ p, p ∈ b.parameters ↔ p ∈ b'.parameters := by
    intro p
    by_cases hp : p.origin = .constant
    · cases p with
      | constant n =>
        rw [constant_mem_parameters_iff h, constant_mem_parameters_iff h', hconstants]
      | auth field => cases hp
      | data field => cases hp
    · rw [field_mem_parameters_iff hp h, field_mem_parameters_iff hp h', hshown, hdropped]
  simp only [mem_keys_params, hsame]

/-! ## What a rule takes from the caller -/

/-- Callers agree on the fields that a rule may use. -/
def Auth.Agree (auth auth' : Auth) : Prop :=
  ∀ field ∈ ["id", "email", "role", "account_id"], auth.get field = auth'.get field

/-- A field of the caller compiles alike for callers that agree, since only the fields that a rule
may use are looked at. -/
theorem compileAuth_eq_of_agree (h : auth.Agree auth') : compileAuth auth = compileAuth auth' := by
  funext field b
  unfold compileAuth
  split
  · next hfield => rw [h field (List.contains_iff_mem.mp hfield)]
  · rfl

theorem compilePath_eq_of_agree (h : auth.Agree auth') : compilePath auth = compilePath auth' := by
  funext path b
  unfold compilePath
  rw [compileAuth_eq_of_agree h]

/-- A call compiles alike for callers that agree, since the macros look at the id and the role only.
-/
theorem compileCall_eq_of_agree (h : auth.Agree auth') : compileCall auth = compileCall auth' := by
  funext f args b
  unfold compileCall
  rw [compileAuth_eq_of_agree h]

mutual

/-- A rule compiles to the same condition with the same parameters for callers that agree. -/
theorem compile_eq_of_agree (h : auth.Agree auth') :
    (e : Expr) → (b : Bindings) → compile auth b e = compile auth' b e
  | .literal value, b => by cases value <;> simp [compile]
  | .path name, b => by rw [compile_path, compile_path, compilePath_eq_of_agree h]
  | .comparison op left right, b => by
    by_cases hop : op = .member
    · rw [hop, compile_member, compile_member, compile_eq_of_agree h left]
    · simp only [compile_comparison hop, compile_eq_of_agree h left, compile_eq_of_agree h right]
  | .connective op left right, b => by
    simp only [compile_connective, compile_eq_of_agree h left, compile_eq_of_agree h right]
  | .not operand, b => by rw [compile_not, compile_not, compile_eq_of_agree h operand]
  | .call name args, b => by
    rw [compile_call, compile_call, compileArgs_eq_of_agree h args, compileCall_eq_of_agree h]

theorem compileArgs_eq_of_agree (h : auth.Agree auth') :
    (args : List Expr) → (b : Bindings) → compileArgs auth b args = compileArgs auth' b args
  | [], b => by rw [compileArgs, compileArgs]
  | arg :: args, b => by
    simp only [compileArgs_cons, compile_eq_of_agree h arg, compileArgs_eq_of_agree h args]

end

/-- **The text of a filter does not depend on data.** Rules that differ in their constants only, for
any two callers, either fail for the same reason or have filters with the same text and the same
parameter names. For callers that agree on the fields that a rule may use a rule has the same filter,
the values of parameters included, or fails for the same reason. -/
theorem filter_independent_of_data :
    (∀ e e' : Expr, e'.blank = e.blank → ∀ auth auth' : Auth,
      (∃ error, Filter.ofExpr auth e = .error error ∧ Filter.ofExpr auth' e' = .error error) ∨
        ∃ filter filter', Filter.ofExpr auth e = .ok filter ∧
          Filter.ofExpr auth' e' = .ok filter' ∧ filter.sql = filter'.sql ∧
          ∀ name, name ∈ filter.params.keys ↔ name ∈ filter'.params.keys) ∧
    ∀ auth auth' : Auth, auth.Agree auth' → ∀ e,
      Filter.ofExpr auth e = Filter.ofExpr auth' e := by
  constructor
  · intro e e' hblank auth auth'
    have halike : Alike (compile auth .empty e) (compile auth' .empty e') :=
      alike_of_blank_eq hblank
    rcases halike with ⟨o, he, he'⟩ | ⟨c, b, b', he, he', hconstants⟩
    · exact .inl ⟨.notSql o, by rw [Filter.ofExpr, he], by rw [Filter.ofExpr, he']⟩
    · exact .inr ⟨⟨c.text, b.params⟩, ⟨c.text, b'.params⟩, by rw [Filter.ofExpr, he],
        by rw [Filter.ofExpr, he'], rfl, mem_keys_iff_of_blank_eq hblank he he' hconstants⟩
  · intro auth auth' hagree e
    rw [Filter.ofExpr, Filter.ofExpr, compile_eq_of_agree hagree]

/-- A rule with constants of every kind, one of them looked up in an empty list, and the same rule
with other constants for another caller; and the first rule again for a caller who differs in a field
that no rule may use. -/
theorem filter_independent_of_data_lists :
    let e : Expr := .connective .or (.comparison .member (.path "state")
        (.literal (.list [.string "a", .list [.int 1]])))
      (.connective .and (.comparison .member (.literal (.int 5)) (.literal (.list [])))
        (.comparison .eq (.path "@request.auth.id") (.literal (.string "' OR 1=1"))))
    let e' : Expr := .connective .or (.comparison .member (.path "state")
        (.literal (.list [.null, .bool true])))
      (.connective .and (.comparison .member (.literal .null) (.literal (.list [])))
        (.comparison .eq (.path "@request.auth.id") (.literal (.int 7))))
    let auth : Auth := ⟨[("id", .string "u1"), ("password", .string "x")]⟩
    let auth' : Auth := ⟨[("id", .string "u1"), ("password", .string "y")]⟩
    e'.blank = e.blank ∧
      (∃ filter filter', Filter.ofExpr auth e = .ok filter ∧
        Filter.ofExpr .empty e' = .ok filter' ∧ filter.sql = filter'.sql ∧
        ∀ name, name ∈ filter.params.keys ↔ name ∈ filter'.params.keys) ∧
      auth.Agree auth' ∧ auth.get "password" ≠ auth'.get "password" ∧
      Filter.ofExpr auth e = Filter.ofExpr auth' e := by
  intro e e' auth auth'
  have hblank : e'.blank = e.blank := rfl
  have hagree : auth.Agree auth' := by
    unfold Auth.Agree
    simp only [List.forall_mem_cons]
    exact ⟨rfl, rfl, rfl, rfl, List.forall_mem_nil _⟩
  refine ⟨hblank, ?_, hagree, ?_, filter_independent_of_data.2 auth auth' hagree e⟩
  · rcases filter_independent_of_data.1 e e' hblank auth .empty with ⟨error, herror, -⟩ | hsame
    · cases herror
    · exact hsame
  · intro h
    have hpassword : Value.string "x" = Value.string "y" := h
    exact absurd (Value.string.inj hpassword) (by decide)

end Sql

end AccessRules
