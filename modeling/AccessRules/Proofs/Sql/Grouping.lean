import AccessRules.Proofs.Sql.Meaning
import AccessRules.Proofs.Sql.Row

/-!
# What a filter says about the grouping of its rule

A filter has room for one condition, and what a database makes of it depends on the text alone. The
text of a comparison inside a comparison does not say where it begins, so some filters come from two
rules that decide differently.

A rule is `Grouped` when no such text can arise from it. Then the left side of a comparison is no
comparison, not even one that is looked up in lists, the right side is neither a comparison nor a
membership, and what stands before `in` is no comparison. Operands of connectives and of `not` are
free, since they are written in parentheses, and so is what is looked up in an empty list, since
nothing of it is written.

> `holds_eq_or_regrouped`: a grouped rule decides the same as every rule with its filter, and every
> other rule shares its filter with a rule that is another condition.
> `equalities_share_filter`: two rules with one filter, of which one holds and the other does not.
-/

namespace AccessRules

open Rule

/-! ## Grouped rules -/

namespace Rule.Expr

/-- A rule whose condition is a single part: it is no comparison, except with an empty list. -/
inductive IsPart : Expr → Prop
  | literal (value : Literal) : IsPart (.literal value)
  | path (name : String) : IsPart (.path name)
  | not (operand : Expr) : IsPart (.not operand)
  | connective (op : Connective) (left right : Expr) : IsPart (.connective op left right)
  | never (operand : Expr) : IsPart (.comparison .member operand (.literal (.list [])))

/-- A part that is looked up in any number of lists, one after the other. -/
inductive Closed : Expr → Prop
  | part {e : Expr} : IsPart e → Closed e
  | member {operand : Expr} (items : List Literal) : Closed operand →
      Closed (.comparison .member operand (.literal (.list items)))

/-- A rule in which no comparison has a comparison for a left side or a comparison or a list that is
looked into for a right side, and nothing but parts and lists stands before a list that is looked
into. What is compared with an empty list does not matter. -/
inductive Grouped : Expr → Prop
  | literal (value : Literal) : Grouped (.literal value)
  | path (name : String) : Grouped (.path name)
  | not {operand : Expr} : Grouped operand → Grouped (.not operand)
  | connective {left right : Expr} (op : Connective) : Grouped left → Grouped right →
      Grouped (.connective op left right)
  | comparison {op : Comparison} {left right : Expr} : op ≠ .member → Closed left →
      IsPart right → Grouped left → Grouped right → Grouped (.comparison op left right)
  | never (operand : Expr) : Grouped (.comparison .member operand (.literal (.list [])))
  | member {operand : Expr} (items : List Literal) : Closed operand → Grouped operand →
      Grouped (.comparison .member operand (.literal (.list items)))

end Rule.Expr

namespace Sql

variable {auth : Auth} {b b' : Bindings} {c : Condition}

/-- The condition of a path is a parameter or a column. -/
theorem exists_of_compile_path {name : String} (h : compile auth b (.path name) = .ok (c, b')) :
    (∃ p, c = .parameter p) ∨ ∃ column, c = .column column := by
  rcases compilePath_eq_ok_iff.mp (compile_path_eq_ok_iff.mp h) with
    ⟨_, -, -, rfl, -⟩ | ⟨_, -, -, rfl, -⟩ | ⟨_, -, -, rfl, -⟩
  · exact Or.inl ⟨_, rfl⟩
  · exact Or.inl ⟨_, rfl⟩
  · exact Or.inr ⟨_, rfl⟩

/-- A rule without calls has a condition without matches. -/
theorem callFree_of_compile : (e : Expr) → {b b' : Bindings} → {c : Condition} → e.calls = [] →
    compile auth b e = .ok (c, b') → c.CallFree
  | .literal value, b, b', c, _, h => by
    obtain ⟨-, rfl, -⟩ := compile_literal_eq_ok_iff.mp h
    trivial
  | .path name, b, b', c, _, h => by
    rcases exists_of_compile_path h with ⟨_, rfl⟩ | ⟨_, rfl⟩
    · trivial
    · trivial
  | .comparison op left right, b, b', c, hcalls, h => by
    rw [Expr.calls, List.append_eq_nil_iff] at hcalls
    by_cases hop : op = .member
    · rw [hop] at h
      obtain ⟨l, b₁, hleft, hright⟩ := compile_member_eq_ok_iff.mp h
      obtain ⟨items, -, ⟨-, rfl, -⟩ | ⟨-, rfl, -⟩⟩ := compileMembership_eq_ok_iff.mp hright
      · -- Nothing is left of the operand.
        trivial
      · show l.CallFree
        exact callFree_of_compile left hcalls.1 hleft
    · obtain ⟨l, b₁, hleft, r, b₂, hright, rfl, -⟩ := (compile_comparison_eq_ok_iff hop).mp h
      exact ⟨hop, callFree_of_compile left hcalls.1 hleft,
        callFree_of_compile right hcalls.2 hright⟩
  | .connective op left right, b, b', c, hcalls, h => by
    rw [Expr.calls, List.append_eq_nil_iff] at hcalls
    obtain ⟨l, b₁, hleft, r, b₂, hright, rfl, -⟩ := compile_connective_eq_ok_iff.mp h
    exact ⟨callFree_of_compile left hcalls.1 hleft, callFree_of_compile right hcalls.2 hright⟩
  | .not operand, b, b', c, hcalls, h => by
    rw [Expr.calls] at hcalls
    obtain ⟨d, b₁, hoperand, rfl, -⟩ := compile_not_eq_ok_iff.mp h
    show d.CallFree
    exact callFree_of_compile operand hcalls hoperand
  | .call name args, b, b', c, hcalls, _ => by
    rw [Expr.calls] at hcalls
    cases hcalls

/-- A list that is looked into gives a membership, an empty one a condition that no row meets. -/
theorem compile_member_list {operand : Expr} {items : List Literal}
    (h : compile auth b (.comparison .member operand (.literal (.list items))) = .ok (c, b')) :
    (items = [] ∧ c = .never) ∨
      ∃ d b₁ numbers, compile auth b operand = .ok (d, b₁) ∧ c = .oneOf d numbers := by
  obtain ⟨d, b₁, hoperand, hmember⟩ := compile_member_eq_ok_iff.mp h
  obtain ⟨_, hitems, ⟨rfl, rfl, -⟩ | ⟨-, rfl, -⟩⟩ := compileMembership_eq_ok_iff.mp hmember
  · cases hitems
    exact Or.inl ⟨rfl, rfl⟩
  · exact Or.inr ⟨d, b₁, _, hoperand, rfl⟩

/-- A part becomes a single part, around which no other grouping is possible. -/
theorem isPart_of_compile {e : Expr} (he : e.IsPart) (h : compile auth b e = .ok (c, b')) :
    c.IsPart := by
  cases he with
  | literal value =>
    obtain ⟨-, rfl, -⟩ := compile_literal_eq_ok_iff.mp h
    trivial
  | path name =>
    rcases exists_of_compile_path h with ⟨_, rfl⟩ | ⟨_, rfl⟩
    · trivial
    · trivial
  | not operand =>
    obtain ⟨d, b₁, -, rfl, -⟩ := compile_not_eq_ok_iff.mp h
    trivial
  | connective op left right =>
    obtain ⟨l, b₁, -, r, b₂, -, rfl, -⟩ := compile_connective_eq_ok_iff.mp h
    trivial
  | never operand =>
    obtain ⟨d, b₁, -, hmember⟩ := compile_member_eq_ok_iff.mp h
    cases hmember
    trivial

/-- What is looked up in lists, one after the other, becomes a condition of that form. -/
theorem closed_of_compile {e : Expr} (he : e.Closed) {b b' : Bindings} {c : Condition}
    (h : compile auth b e = .ok (c, b')) : c.Closed := by
  induction he generalizing b b' c with
  | part hpart => exact .part (isPart_of_compile hpart h)
  | member items _ ih =>
    rcases compile_member_list h with ⟨-, rfl⟩ | ⟨d, b₁, numbers, hoperand, rfl⟩
    · exact .part trivial
    · exact .oneOf numbers (ih hoperand)

/-- A grouped rule has a grouped condition. -/
theorem grouped_of_compile {e : Expr} (he : e.Grouped) {b b' : Bindings} {c : Condition}
    (h : compile auth b e = .ok (c, b')) : c.Grouped := by
  induction he generalizing b b' c with
  | literal value =>
    obtain ⟨-, rfl, -⟩ := compile_literal_eq_ok_iff.mp h
    exact .parameter _
  | path name =>
    rcases exists_of_compile_path h with ⟨_, rfl⟩ | ⟨_, rfl⟩
    · exact .parameter _
    · exact .column _
  | not _ ih =>
    obtain ⟨d, b₁, hoperand, rfl, -⟩ := compile_not_eq_ok_iff.mp h
    exact .not (ih hoperand)
  | connective op _ _ ihl ihr =>
    obtain ⟨l, b₁, hleft, r, b₂, hright, rfl, -⟩ := compile_connective_eq_ok_iff.mp h
    exact .connective op (ihl hleft) (ihr hright)
  | comparison hop hclosed hpart _ _ ihl ihr =>
    obtain ⟨l, b₁, hleft, r, b₂, hright, rfl, -⟩ := (compile_comparison_eq_ok_iff hop).mp h
    exact .comparison _ (closed_of_compile hclosed hleft) (isPart_of_compile hpart hright)
      (ihl hleft) (ihr hright)
  | never operand =>
    obtain ⟨d, b₁, -, hmember⟩ := compile_member_eq_ok_iff.mp h
    cases hmember
    exact .never
  | member items hclosed _ ih =>
    rcases compile_member_list h with ⟨-, rfl⟩ | ⟨d, b₁, numbers, hoperand, rfl⟩
    · exact .never
    · exact .oneOf numbers (closed_of_compile hclosed hoperand) (ih hoperand)

/-! ## Rules with the same filter -/

/-- What the names in the condition of a filter stand for in a context. -/
def Filter.env (filter : Filter) (context : Context) : Env where
  column name := context.resolve (Variable.field name).path
  parameter
    | .constant n => (filter.params.find? (Parameter.constant n).name).getD .null
    | .auth field => context.resolve (Variable.auth field).path
    | .data field => context.resolve (Variable.data field).path

/-- A rule without calls has the value of its condition, with the constants of its filter. -/
theorem evaluate_eq_value {e : Expr} {filter : Filter} (hcalls : e.calls = [])
    (h : compile auth .empty e = .ok (c, b)) (hparams : filter.params = b.params)
    (context : Context) (hour : Hour) :
    e.evaluate context hour = .ok (c.value (filter.env context)) := by
  obtain ⟨constants, hsound⟩ := Bindings.sound_of_compile h
  -- What is no constant is looked up in the context on both sides.
  have hpaths : ∀ path ∈ e.paths,
      context.resolve path = (filter.env context).variable (.ofPath path) := by
    intro path _
    have hpath := Variable.path_ofPath path
    cases hof : Variable.ofPath path <;>
    · rw [hof] at hpath
      rw [← hpath]
      rfl
  have hknows : (filter.env context).Knows b := by
    intro n v hmem
    show (filter.params.find? _).getD .null = v
    rw [hparams, hsound.find?_params hmem, Option.getD_some]
  exact evaluate_of_compile e hcalls hpaths h hknows

/-- **A grouped rule decides the same as every rule with its filter.** -/
theorem holds_eq_of_same_filter {e₁ e₂ : Expr} {filter : Filter} (hgrouped : e₁.Grouped)
    (hcalls₁ : e₁.calls = []) (hcalls₂ : e₂.calls = [])
    (h₁ : Filter.ofExpr auth e₁ = .ok filter) (h₂ : Filter.ofExpr auth e₂ = .ok filter)
    (context : Context) (hour : Hour) : e₁.holds context hour = e₂.holds context hour := by
  obtain ⟨c₁, b₁, hcompile₁, hsql₁, hparams₁⟩ := exists_compile_of_ofExpr h₁
  obtain ⟨c₂, b₂, hcompile₂, hsql₂, hparams₂⟩ := exists_compile_of_ofExpr h₂
  have htext : c₁.text = c₂.text := by
    rw [← hsql₁, hsql₂]
  -- The text leaves one condition, and the dictionary one value for each of its constants.
  have hc : c₂ = c₁ := eq_of_text_eq (grouped_of_compile hgrouped hcompile₁)
    (callFree_of_compile e₁ hcalls₁ hcompile₁) (callFree_of_compile e₂ hcalls₂ hcompile₂)
    (compile_plain e₁ hcompile₁) (compile_plain e₂ hcompile₂) htext
  rw [Expr.holds, Expr.holds, evaluate_eq_value hcalls₁ hcompile₁ hparams₁,
    evaluate_eq_value hcalls₂ hcompile₂ hparams₂, hc]

/-! ## Rules with more than one grouping -/

/-- What is grouped and not closed is a comparison. -/
theorem exists_comparison_of_not_closed {e : Expr} (hgrouped : e.Grouped) (h : ¬e.Closed) :
    ∃ op left right, op ≠ .member ∧ e = .comparison op left right := by
  cases hgrouped with
  | literal value => exact absurd (.part (.literal value)) h
  | path name => exact absurd (.part (.path name)) h
  | not _ => exact absurd (.part (.not _)) h
  | connective op _ _ => exact absurd (.part (.connective op _ _)) h
  | never operand => exact absurd (.part (.never operand)) h
  | member items hclosed _ => exact absurd (.member items hclosed) h
  | comparison hop _ _ _ _ => exact ⟨_, _, _, hop, rfl⟩

/-- What compiles and is no part is a comparison or a membership in a list that is looked into. -/
theorem exists_of_not_isPart {e : Expr} (hcalls : e.calls = []) (h : ¬e.IsPart)
    (hcompile : compile auth b e = .ok (c, b')) :
    (∃ op left right, op ≠ .member ∧ e = .comparison op left right) ∨
      ∃ operand items, items ≠ [] ∧
        e = .comparison .member operand (.literal (.list items)) := by
  cases e with
  | literal value => exact absurd (.literal value) h
  | path name => exact absurd (.path name) h
  | not operand => exact absurd (.not operand) h
  | connective op left right => exact absurd (.connective op left right) h
  | call name args =>
    rw [Expr.calls] at hcalls
    cases hcalls
  | comparison op left right =>
    by_cases hop : op = .member
    · rw [hop] at hcompile h ⊢
      obtain ⟨l, b₁, -, hmember⟩ := compile_member_eq_ok_iff.mp hcompile
      obtain ⟨items, rfl, -⟩ := compileMembership_eq_ok_iff.mp hmember
      -- A lookup in an empty list would be a part.
      refine Or.inr ⟨left, items, ?_, rfl⟩
      intro heq
      subst heq
      exact h (.never left)
    · exact Or.inl ⟨op, left, right, hop, rfl⟩

/-- A lookup in a list that is not empty becomes the operand with the numbers of the items. -/
theorem compile_member_iff {operand : Expr} {items : List Literal} (hitems : items ≠ []) :
    compile auth b (.comparison .member operand (.literal (.list items))) = .ok (c, b') ↔
      ∃ d b₁, compile auth b operand = .ok (d, b₁) ∧
        c = .oneOf d (compileItems b₁ items).1 ∧ b' = (compileItems b₁ items).2 := by
  rw [compile_member_eq_ok_iff]
  constructor
  · intro h
    obtain ⟨d, b₁, hoperand, hmember⟩ := h
    obtain ⟨_, heq, ⟨rfl, -, -⟩ | ⟨-, hc, hb⟩⟩ := compileMembership_eq_ok_iff.mp hmember
    · cases heq
      exact absurd rfl hitems
    · cases heq
      exact ⟨d, b₁, hoperand, hc, hb⟩
  · intro h
    obtain ⟨d, b₁, hoperand, hc, hb⟩ := h
    exact ⟨d, b₁, hoperand,
      compileMembership_eq_ok_iff.mpr ⟨items, rfl, Or.inr ⟨hitems, hc, hb⟩⟩⟩

/-- `Regroups auth b c b'`: from the same bindings some rule compiles to the same text and leaves
the same bindings, but has another condition. -/
def Regroups (auth : Auth) (b : Bindings) (c : Condition) (b' : Bindings) : Prop :=
  ∃ e d, e.calls = [] ∧ compile auth b e = .ok (d, b') ∧ d.text = c.text ∧ d ≠ c

/-! ### Parts that can be grouped in another way -/

namespace Regroups

variable {b₁ b₂ : Bindings} {l r : Condition} {left right : Expr}

theorem not (h : Regroups auth b c b') : Regroups auth b (.not c) b' := by
  obtain ⟨e, d, hcalls, hcompile, htext, hne⟩ := h
  refine ⟨.not e, .not d, by rw [Expr.calls, hcalls],
    compile_not_eq_ok_iff.mpr ⟨d, _, hcompile, rfl, rfl⟩, ?_, ?_⟩
  · rw [Condition.text, Condition.text, htext]
  · intro heq
    cases heq
    exact hne rfl

theorem connective_left (op : Connective) (h : Regroups auth b l b₁) (hcalls : right.calls = [])
    (hright : compile auth b₁ right = .ok (r, b₂)) :
    Regroups auth b (.connective op l r) b₂ := by
  obtain ⟨e, l', hcalls', hl', htext, hne⟩ := h
  refine ⟨.connective op e right, .connective op l' r, ?_,
    compile_connective_eq_ok_iff.mpr ⟨l', _, hl', r, _, hright, rfl, rfl⟩, ?_, ?_⟩
  · rw [Expr.calls, hcalls, hcalls', List.append_nil]
  · rw [Condition.text, Condition.text, htext]
  · intro heq
    cases heq
    exact hne rfl

theorem connective_right (op : Connective) (hcalls : left.calls = [])
    (hleft : compile auth b left = .ok (l, b₁)) (h : Regroups auth b₁ r b₂) :
    Regroups auth b (.connective op l r) b₂ := by
  obtain ⟨e, r', hcalls', hr', htext, hne⟩ := h
  refine ⟨.connective op left e, .connective op l r', ?_,
    compile_connective_eq_ok_iff.mpr ⟨l, _, hleft, r', _, hr', rfl, rfl⟩, ?_, ?_⟩
  · rw [Expr.calls, hcalls, hcalls', List.append_nil]
  · rw [Condition.text, Condition.text, htext]
  · intro heq
    cases heq
    exact hne rfl

theorem comparison_left {op : Comparison} (hop : op ≠ .member) (h : Regroups auth b l b₁)
    (hcalls : right.calls = []) (hright : compile auth b₁ right = .ok (r, b₂)) :
    Regroups auth b (.comparison op l r) b₂ := by
  obtain ⟨e, l', hcalls', hl', htext, hne⟩ := h
  refine ⟨.comparison op e right, .comparison op l' r, ?_,
    (compile_comparison_eq_ok_iff hop).mpr ⟨l', _, hl', r, _, hright, rfl, rfl⟩, ?_, ?_⟩
  · rw [Expr.calls, hcalls, hcalls', List.append_nil]
  · rw [Condition.text, Condition.text, htext]
  · intro heq
    cases heq
    exact hne rfl

theorem comparison_right {op : Comparison} (hop : op ≠ .member) (hcalls : left.calls = [])
    (hleft : compile auth b left = .ok (l, b₁)) (h : Regroups auth b₁ r b₂) :
    Regroups auth b (.comparison op l r) b₂ := by
  obtain ⟨e, r', hcalls', hr', htext, hne⟩ := h
  refine ⟨.comparison op left e, .comparison op l r', ?_,
    (compile_comparison_eq_ok_iff hop).mpr ⟨l, _, hleft, r', _, hr', rfl, rfl⟩, ?_, ?_⟩
  · rw [Expr.calls, hcalls, hcalls', List.append_nil]
  · rw [Condition.text, Condition.text, htext]
  · intro heq
    cases heq
    exact hne rfl

theorem member {items : List Literal} (hitems : items ≠ []) (h : Regroups auth b l b₁) :
    Regroups auth b (.oneOf l (compileItems b₁ items).1) (compileItems b₁ items).2 := by
  obtain ⟨e, l', hcalls', hl', htext, hne⟩ := h
  refine ⟨.comparison .member e (.literal (.list items)), _, ?_,
    (compile_member_iff hitems).mpr ⟨l', _, hl', rfl, rfl⟩, ?_, ?_⟩
  · rw [Expr.calls, hcalls', Expr.calls, List.append_nil]
  · rw [Condition.text, Condition.text, htext]
  · intro heq
    cases heq
    exact hne rfl

end Regroups

/-! ### Comparisons side by side -/

section

variable {op op' : Comparison} {e₁ e₂ e₃ : Expr} {items : List Literal}

/-- A comparison on the left side of another can be moved to the right side. -/
theorem regroups_of_left (hop : op ≠ .member) (hop' : op' ≠ .member)
    (hcalls : (Expr.comparison op' (.comparison op e₁ e₂) e₃).calls = [])
    (h : compile auth b (.comparison op' (.comparison op e₁ e₂) e₃) = .ok (c, b')) :
    Regroups auth b c b' := by
  obtain ⟨l, b₂, hleft, c₃, b₃, h₃, rfl, rfl⟩ := (compile_comparison_eq_ok_iff hop').mp h
  obtain ⟨c₁, b₁, h₁, c₂, _, h₂, rfl, rfl⟩ := (compile_comparison_eq_ok_iff hop).mp hleft
  have hright := (compile_comparison_eq_ok_iff hop').mpr ⟨c₂, _, h₂, c₃, _, h₃, rfl, rfl⟩
  refine ⟨.comparison op e₁ (.comparison op' e₂ e₃), _, ?_,
    (compile_comparison_eq_ok_iff hop).mpr ⟨c₁, _, h₁, _, _, hright, rfl, rfl⟩, ?_, ?_⟩
  · simpa [Expr.calls, and_assoc] using hcalls
  · simp [Condition.text, String.append_assoc]
  · intro heq
    injection heq with _ heq _
    cases heq

/-- A comparison on the right side of another can be moved to the left side. -/
theorem regroups_of_right (hop : op ≠ .member) (hop' : op' ≠ .member)
    (hcalls : (Expr.comparison op e₁ (.comparison op' e₂ e₃)).calls = [])
    (h : compile auth b (.comparison op e₁ (.comparison op' e₂ e₃)) = .ok (c, b')) :
    Regroups auth b c b' := by
  obtain ⟨c₁, b₁, h₁, r, b₃, hright, rfl, rfl⟩ := (compile_comparison_eq_ok_iff hop).mp h
  obtain ⟨c₂, b₂, h₂, c₃, _, h₃, rfl, rfl⟩ := (compile_comparison_eq_ok_iff hop').mp hright
  have hleft := (compile_comparison_eq_ok_iff hop).mpr ⟨c₁, _, h₁, c₂, _, h₂, rfl, rfl⟩
  refine ⟨.comparison op' (.comparison op e₁ e₂) e₃, _, ?_,
    (compile_comparison_eq_ok_iff hop').mpr ⟨_, _, hleft, c₃, _, h₃, rfl, rfl⟩, ?_, ?_⟩
  · simpa [Expr.calls, and_assoc] using hcalls
  · simp [Condition.text, String.append_assoc]
  · intro heq
    injection heq with _ heq _
    cases heq

/-- A list behind a comparison can be moved to its right side. -/
theorem regroups_of_member (hop : op ≠ .member) (hitems : items ≠ [])
    (hcalls : (Expr.comparison op e₁ e₂).calls = [])
    (h : compile auth b (.comparison .member (.comparison op e₁ e₂) (.literal (.list items))) =
      .ok (c, b')) : Regroups auth b c b' := by
  obtain ⟨l, b₂, hleft, rfl, rfl⟩ := (compile_member_iff hitems).mp h
  obtain ⟨c₁, b₁, h₁, c₂, _, h₂, rfl, rfl⟩ := (compile_comparison_eq_ok_iff hop).mp hleft
  have hright := (compile_member_iff hitems).mpr ⟨c₂, _, h₂, rfl, rfl⟩
  refine ⟨.comparison op e₁ (.comparison .member e₂ (.literal (.list items))), _, ?_,
    (compile_comparison_eq_ok_iff hop).mpr ⟨c₁, _, h₁, _, _, hright, rfl, rfl⟩, ?_, nofun⟩
  · simpa [Expr.calls] using hcalls
  · simp [Condition.text, String.append_assoc]

/-- A list on the right side of a comparison can be moved behind it. -/
theorem regroups_of_right_member (hop : op ≠ .member) (hitems : items ≠ [])
    (hcalls : (Expr.comparison op e₁ e₂).calls = [])
    (h : compile auth b (.comparison op e₁ (.comparison .member e₂ (.literal (.list items)))) =
      .ok (c, b')) : Regroups auth b c b' := by
  obtain ⟨c₁, b₁, h₁, r, b₃, hright, rfl, rfl⟩ := (compile_comparison_eq_ok_iff hop).mp h
  obtain ⟨c₂, b₂, h₂, rfl, rfl⟩ := (compile_member_iff hitems).mp hright
  have hleft := (compile_comparison_eq_ok_iff hop).mpr ⟨c₁, _, h₁, c₂, _, h₂, rfl, rfl⟩
  refine ⟨.comparison .member (.comparison op e₁ e₂) (.literal (.list items)), _, ?_,
    (compile_member_iff hitems).mpr ⟨_, _, hleft, rfl, rfl⟩, ?_, nofun⟩
  · simpa [Expr.calls] using hcalls
  · simp [Condition.text, String.append_assoc]

end

/-- A rule that is not grouped can be grouped in another way. -/
theorem exists_regrouped : (e : Expr) → {b b' : Bindings} → {c : Condition} → e.calls = [] →
    ¬e.Grouped → compile auth b e = .ok (c, b') → Regroups auth b c b'
  | .literal value, b, b', c, _, hnot, _ => absurd (.literal value) hnot
  | .path name, b, b', c, _, hnot, _ => absurd (.path name) hnot
  | .call name args, b, b', c, hcalls, _, _ => by
    rw [Expr.calls] at hcalls
    cases hcalls
  | .not operand, b, b', c, hcalls, hnot, h => by
    obtain ⟨d, b₁, hoperand, rfl, rfl⟩ := compile_not_eq_ok_iff.mp h
    rw [Expr.calls] at hcalls
    exact (exists_regrouped operand hcalls (fun hgrouped => hnot (.not hgrouped)) hoperand).not
  | .connective op left right, b, b', c, hcalls, hnot, h => by
    obtain ⟨l, b₁, hleft, r, b₂, hright, rfl, rfl⟩ := compile_connective_eq_ok_iff.mp h
    rw [Expr.calls, List.append_eq_nil_iff] at hcalls
    -- Regrouping the first part that is not grouped is enough.
    by_cases hl : left.Grouped
    · have hr : ¬right.Grouped := fun hr => hnot (.connective op hl hr)
      exact (exists_regrouped right hcalls.2 hr hright).connective_right op hcalls.1 hleft
    · exact (exists_regrouped left hcalls.1 hl hleft).connective_left op hcalls.2 hright
  | .comparison op left right, b, b', c, hcalls, hnot, h => by
    have hsides := hcalls
    rw [Expr.calls, List.append_eq_nil_iff] at hsides
    by_cases hop : op = .member
    · rw [hop] at h hnot
      obtain ⟨l, b₁, hleft, hmember⟩ := compile_member_eq_ok_iff.mp h
      obtain ⟨items, rfl, -⟩ := compileMembership_eq_ok_iff.mp hmember
      have hitems : items ≠ [] := by
        intro heq
        subst heq
        exact hnot (.never left)
      by_cases hl : left.Grouped
      · -- only the operand can be at fault, and it is a comparison
        have hclosed : ¬left.Closed := fun hclosed => hnot (.member items hclosed hl)
        obtain ⟨op', e₁, e₂, hop', rfl⟩ := exists_comparison_of_not_closed hl hclosed
        exact regroups_of_member hop' hitems hsides.1 h
      · obtain ⟨_, _, hl', rfl, rfl⟩ := (compile_member_iff hitems).mp h
        exact (exists_regrouped left hsides.1 hl hl').member hitems
    · obtain ⟨l, b₁, hleft, r, b₂, hright, hc, hb⟩ := (compile_comparison_eq_ok_iff hop).mp h
      by_cases hl : left.Grouped
      · by_cases hr : right.Grouped
        · by_cases hclosed : left.Closed
          · -- the right side is at fault: a comparison, or a list behind something
            have hpart : ¬right.IsPart := fun hpart =>
              hnot (.comparison hop hclosed hpart hl hr)
            rcases exists_of_not_isPart hsides.2 hpart hright with
              ⟨op', e₁, e₂, hop', rfl⟩ | ⟨operand, items, hitems, rfl⟩
            · exact regroups_of_right hop hop' hcalls h
            · refine regroups_of_right_member hop hitems ?_ h
              simpa [Expr.calls] using hcalls
          · obtain ⟨op', e₁, e₂, hop', rfl⟩ := exists_comparison_of_not_closed hl hclosed
            exact regroups_of_left hop' hop hcalls h
        · rw [hc, hb]
          exact (exists_regrouped right hsides.2 hr hright).comparison_right hop hsides.1 hleft
      · rw [hc, hb]
        exact (exists_regrouped left hsides.1 hl hleft).comparison_left hop hsides.2 hright

/-! ## Which filters tell how their rule is grouped -/

/-- **A filter decides like every rule that it comes from exactly where it tells their grouping.** A
grouped rule decides the same as each rule with its filter, in every context and at every hour; a
rule that is not grouped shares its filter with a rule of another condition. -/
theorem holds_eq_or_regrouped {e : Expr} {filter : Filter} (hcalls : e.calls = [])
    (h : Filter.ofExpr auth e = .ok filter) :
    (e.Grouped → ∀ e' : Expr, e'.calls = [] → Filter.ofExpr auth e' = .ok filter →
      ∀ context hour, e.holds context hour = e'.holds context hour) ∧
    (¬e.Grouped → ∃ (e' : Expr) (c c' : Condition) (b : Bindings), e'.calls = [] ∧
      Filter.ofExpr auth e' = .ok filter ∧ compile auth .empty e = .ok (c, b) ∧
      compile auth .empty e' = .ok (c', b) ∧ c' ≠ c) := by
  constructor
  · intro hgrouped e' hcalls' h' context hour
    exact holds_eq_of_same_filter hgrouped hcalls hcalls' h h' context hour
  · intro hnot
    obtain ⟨c, b, hcompile, hsql, hparams⟩ := exists_compile_of_ofExpr h
    -- The other rule binds the same under the same names, so its filter is the same as a whole.
    obtain ⟨e', c', hcalls', hcompile', htext, hne⟩ := exists_regrouped e hcalls hnot hcompile
    refine ⟨e', c, c', b, hcalls', ?_, hcompile, hcompile', hne⟩
    have hfilter : filter = ⟨c.text, b.params⟩ := by
      rw [← hsql, ← hparams]
    rw [Filter.ofExpr, hcompile', hfilter]
    show Except.ok (Filter.mk c'.text b.params) = _
    rw [htext]

/-- The rules `x in [] or a == 1` and `y in [] or a == 1` have one filter and decide the same. -/
theorem holds_eq_or_regrouped_empty_list :
    let e : Expr := .connective .or (.comparison .member (.path "x") (.literal (.list [])))
      (.comparison .eq (.path "a") (.literal (.int 1)))
    let e' : Expr := .connective .or (.comparison .member (.path "y") (.literal (.list [])))
      (.comparison .eq (.path "a") (.literal (.int 1)))
    e.calls = [] ∧ e.Grouped ∧ ∃ filter, Filter.ofExpr .empty e = .ok filter ∧
      Filter.ofExpr .empty e' = .ok filter ∧
      ∀ context hour, e.holds context hour = e'.holds context hour := by
  intro e e'
  have hcalls : e.calls = [] := rfl
  have hgrouped : e.Grouped := .connective .or (.never _)
    (.comparison nofun (.part (.path _)) (.literal _) (.path _) (.literal _))
  have hfilter : Filter.ofExpr .empty e = .ok ⟨_, _⟩ := rfl
  have hfilter' : Filter.ofExpr .empty e' = .ok ⟨_, _⟩ := rfl
  exact ⟨hcalls, hgrouped, _, hfilter, hfilter',
    (holds_eq_or_regrouped hcalls hfilter).1 hgrouped e' rfl hfilter'⟩

/-- The rules `(a == b) == c` and `a == (b == c)` have one filter, and in a context that agrees with
what is known about the caller the first holds and the second does not. -/
theorem equalities_share_filter :
    let e : Expr := .comparison .eq (.comparison .eq (.path "a") (.path "b")) (.path "c")
    let e' : Expr := .comparison .eq (.path "a") (.comparison .eq (.path "b") (.path "c"))
    let filter : Filter := ⟨"a = b = c", []⟩
    let caller : Value := .map [("account_id", .string ""), ("email", .string ""),
      ("id", .string ""), ("role", .string "")]
    let context : Context := ⟨[("@request", .map [("auth", caller)]), ("a", .int 1),
      ("b", .int 1), ("c", .bool true)]⟩
    parse "(a == b) == c" = .ok e ∧ parse "a == (b == c)" = .ok e' ∧
      e.calls = [] ∧ e'.calls = [] ∧
      Filter.ofExpr .empty e = .ok filter ∧ Filter.ofExpr .empty e' = .ok filter ∧
      (∀ field ∈ Variable.authFields,
        context.resolve (Variable.auth field).path = Auth.empty.get field) ∧
      e.holds context 0 = .ok true ∧ e'.holds context 0 = .ok false := by
  intro e e' filter caller context
  refine ⟨?_, ?_, rfl, rfl, rfl, rfl, ?_, rfl, rfl⟩
  · with_unfolding_all rfl
  · with_unfolding_all rfl
  · intro field hfield
    simp only [Variable.authFields, List.mem_cons, List.not_mem_nil, or_false] at hfield
    rcases hfield with rfl | rfl | rfl | rfl <;> rfl

end Sql

end AccessRules
