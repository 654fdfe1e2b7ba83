import AccessRules.Proofs.Rule.Violations
import AccessRules.Proofs.Sql.Sentence

/-!
# Which rules have a filter

The validator and the compiler walk a rule each in its own way. What the one refuses for every
collection the other refuses too, and what else the compiler needs can be said without it:

> `exists_compile_iff`: a rule compiles exactly when its paths have plain names, its calls have
> conditions and its lists stand on the right of `in`.
> `exists_filter_iff`: so a rule has a filter exactly when the validator finds no faulty call and no
> field of the caller that may not be used, no call is to a macro that needs data at run time, the
> names of columns and fields of the request body are plain, and lists stand in their place.

A list within a list is one of its values, and no list of the rule.
-/

namespace AccessRules

open Rule

namespace Rule.Expr

mutual

/-- Lists stand on the right of `in`, and nothing but lists stands there. -/
def ListsInPlace : Expr → Prop
  | .literal value => ∀ items, value ≠ .list items
  | .path _ => True
  | .comparison op left right =>
    ListsInPlace left ∧
      if op = .member then ∃ items, right = .literal (.list items) else ListsInPlace right
  | .connective _ left right => ListsInPlace left ∧ ListsInPlace right
  | .not operand => ListsInPlace operand
  | .call _ args => ArgListsInPlace args

/-- Lists stand in their place in each of some arguments. -/
def ArgListsInPlace : List Expr → Prop
  | [] => True
  | arg :: args => ListsInPlace arg ∧ ArgListsInPlace args

end

end Rule.Expr

namespace Sql

variable {auth : Auth} {b b' : Bindings}

/-! ## Parts that compile -/

/-- A path that becomes a column or a parameter. -/
def PathCompiles (path : String) : Prop :=
  match Variable.ofPath path with
  | .auth field => Variable.isAuthField field = true
  | .data field => isPlainName field = true
  | .field name => isPlainName name = true

/-- A call of a function that has a condition, with as many arguments as it takes. -/
def CallCompiles (call : String × List Expr) : Prop :=
  ∃ f, Function.resolve call.1 call.2.length = .ok f ∧ hasCondition f = true

/-- All of some paths and calls compile. -/
def PartsCompile (paths : List String) (calls : List (String × List Expr)) : Prop :=
  (∀ path ∈ paths, PathCompiles path) ∧ ∀ call ∈ calls, CallCompiles call

/-- Two groups of paths and calls compile together if each of them does. -/
theorem partsCompile_append_iff {paths paths' : List String}
    {calls calls' : List (String × List Expr)} :
    PartsCompile (paths ++ paths') (calls ++ calls') ↔
      PartsCompile paths calls ∧ PartsCompile paths' calls' := by
  simp only [PartsCompile, List.forall_mem_append]
  exact and_and_and_comm

/-- Whether a path compiles does not depend on what is bound already. -/
theorem exists_compilePath_iff {path : String} :
    (∃ c b', compilePath auth path b = .ok (c, b')) ↔ PathCompiles path := by
  simp only [compilePath_eq_ok_iff, PathCompiles]
  cases Variable.ofPath path <;> simp

/-- A value can be looked up in a constant list, and in nothing else. -/
theorem exists_compileMembership_iff {operand : Condition} {container : Expr} :
    (∃ c b', compileMembership operand b container = .ok (c, b')) ↔
      ∃ items, container = .literal (.list items) := by
  simp only [compileMembership_eq_ok_iff]
  constructor
  · intro h
    obtain ⟨_, _, items, heq, -⟩ := h
    exact ⟨items, heq⟩
  · intro h
    obtain ⟨items, heq⟩ := h
    by_cases hitems : items = []
    · exact ⟨_, _, items, heq, .inl ⟨hitems, rfl, rfl⟩⟩
    · exact ⟨_, _, items, heq, .inr ⟨hitems, rfl, rfl⟩⟩

/-- A function that has a condition has one for every row of arguments that it can take. -/
theorem exists_compileCall {f : Function} {args : List Condition} (hf : hasCondition f = true)
    (hargs : args.length = f.arity) : ∃ c b', compileCall auth f args b = .ok (c, b') := by
  have hrole : Variable.isAuthField "role" = true := by decide
  have hid : Variable.isAuthField "id" = true := by decide
  match f, args, hargs with
  | .contains, [_, _], _ => exact ⟨_, _, rfl⟩
  | .startsWith, [_, _], _ => exact ⟨_, _, rfl⟩
  | .endsWith, [_, _], _ => exact ⟨_, _, rfl⟩
  | .hasRole, [_], _ =>
    rw [compileCall, compileAuth, if_pos hrole]
    exact ⟨_, _, rfl⟩
  | .ownsRecord, [], _ =>
    rw [compileCall, compileAuth, if_pos hid]
    exact ⟨_, _, rfl⟩
  | .isCreator, [], _ =>
    rw [compileCall, compileAuth, if_pos hid]
    exact ⟨_, _, rfl⟩

/-- Each argument has a condition of its own. -/
theorem length_of_compileArgs {args : List Expr} {cs : List Condition}
    (h : compileArgs auth b args = .ok (cs, b')) : cs.length = args.length := by
  induction args generalizing b cs with
  | nil =>
    rw [compileArgs] at h
    cases h
    rfl
  | cons arg args ih =>
    obtain ⟨_, _, -, ds, _, hargs, rfl, rfl⟩ := compileArgs_cons_eq_ok_iff.mp h
    rw [List.length_cons, List.length_cons, ih hargs]

/-! ## Rules that compile -/

/-- Two parts compiled one behind the other, whatever is made of them. -/
theorem exists_both_iff {α β γ : Type} {first : Compiled α} {second : Bindings → Compiled β}
    {f : α → β → γ} {P Q : Prop} (hfirst : (∃ a b', first = .ok (a, b')) ↔ P)
    (hsecond : ∀ b₁, (∃ d b', second b₁ = .ok (d, b')) ↔ Q) :
    (∃ c b', ∃ a b₁, first = .ok (a, b₁) ∧ ∃ d b₂, second b₁ = .ok (d, b₂) ∧
      c = f a d ∧ b' = b₂) ↔ P ∧ Q := by
  constructor
  · intro h
    obtain ⟨_, _, a, b₁, ha, d, b₂, hd, -, -⟩ := h
    exact ⟨hfirst.mp ⟨a, b₁, ha⟩, (hsecond b₁).mp ⟨d, b₂, hd⟩⟩
  · intro h
    obtain ⟨a, b₁, ha⟩ := hfirst.mpr h.1
    obtain ⟨d, b₂, hd⟩ := (hsecond b₁).mpr h.2
    exact ⟨f a d, b₂, a, b₁, ha, d, b₂, hd, rfl, rfl⟩

mutual

/-- **A rule compiles exactly when its lists are in place and its paths and calls compile.** -/
theorem exists_compile_iff : (e : Expr) → {b : Bindings} →
    ((∃ c b', compile auth b e = .ok (c, b')) ↔ e.ListsInPlace ∧ PartsCompile e.paths e.calls)
  | .literal value, b => by
    simp [compile_literal_eq_ok_iff, Expr.ListsInPlace, Expr.paths, Expr.calls, PartsCompile]
  | .path name, b => by
    simp only [compile_path_eq_ok_iff, exists_compilePath_iff, Expr.ListsInPlace, Expr.paths,
      Expr.calls, PartsCompile]
    simp
  | .comparison op left right, b => by
    rw [Expr.ListsInPlace, Expr.paths, Expr.calls, partsCompile_append_iff]
    by_cases hop : op = .member
    · subst hop
      rw [if_pos rfl]
      simp only [compile_member_eq_ok_iff]
      constructor
      · intro h
        obtain ⟨c, b', l, b₁, hleft, hright⟩ := h
        obtain ⟨hlists, hparts⟩ := (exists_compile_iff left).mp ⟨l, b₁, hleft⟩
        obtain ⟨items, rfl⟩ := exists_compileMembership_iff.mp ⟨c, b', hright⟩
        refine ⟨⟨hlists, items, rfl⟩, hparts, ?_⟩
        -- A list has neither paths nor calls.
        simp [Expr.paths, Expr.calls, PartsCompile]
      · intro h
        obtain ⟨⟨hlists, hright⟩, hparts, -⟩ := h
        obtain ⟨l, b₁, hleft⟩ := (exists_compile_iff left (b := b)).mpr ⟨hlists, hparts⟩
        obtain ⟨c, b', hmember⟩ := exists_compileMembership_iff.mpr hright
        exact ⟨c, b', l, b₁, hleft, hmember⟩
    · rw [if_neg hop]
      simp only [compile_comparison_eq_ok_iff hop]
      exact (exists_both_iff (exists_compile_iff left) fun _ => exists_compile_iff right).trans
        and_and_and_comm
  | .connective op left right, b => by
    rw [Expr.ListsInPlace, Expr.paths, Expr.calls, partsCompile_append_iff]
    simp only [compile_connective_eq_ok_iff]
    exact (exists_both_iff (exists_compile_iff left) fun _ => exists_compile_iff right).trans
      and_and_and_comm
  | .not operand, b => by
    rw [Expr.ListsInPlace, Expr.paths, Expr.calls, ← exists_compile_iff operand (b := b)]
    simp only [compile_not_eq_ok_iff]
    constructor
    · intro h
      obtain ⟨_, _, c, b', hoperand, -, -⟩ := h
      exact ⟨c, b', hoperand⟩
    · intro h
      obtain ⟨c, b', hoperand⟩ := h
      exact ⟨_, _, c, b', hoperand, rfl, rfl⟩
  | .call name args, b => by
    rw [Expr.ListsInPlace, Expr.paths, Expr.calls]
    simp only [compile_call_eq_ok_iff, PartsCompile, List.forall_mem_cons]
    constructor
    · intro h
      obtain ⟨_, _, f, hresolve, hf, cs, b₁, hargs, -⟩ := h
      obtain ⟨hlists, hpaths, hcalls⟩ := (exists_compileArgs_iff args).mp ⟨cs, b₁, hargs⟩
      exact ⟨hlists, hpaths, ⟨f, hresolve, hf⟩, hcalls⟩
    · intro h
      obtain ⟨hlists, hpaths, ⟨f, hresolve, hf⟩, hcalls⟩ := h
      obtain ⟨cs, b₁, hargs⟩ :=
        (exists_compileArgs_iff args (b := b)).mpr ⟨hlists, hpaths, hcalls⟩
      have harity : cs.length = f.arity := by
        rw [length_of_compileArgs hargs, (Function.resolve_eq_ok_iff.mp hresolve).2]
      obtain ⟨c, b', hcall⟩ : ∃ c b', compileCall auth f cs b₁ = .ok (c, b') :=
        exists_compileCall hf harity
      exact ⟨c, b', f, hresolve, hf, cs, b₁, hargs, hcall⟩

theorem exists_compileArgs_iff : (args : List Expr) → {b : Bindings} →
    ((∃ cs b', compileArgs auth b args = .ok (cs, b')) ↔
      Expr.ArgListsInPlace args ∧ PartsCompile (Expr.argPaths args) (Expr.argCalls args))
  | [], b => by
    simp [compileArgs, Expr.ArgListsInPlace, Expr.argPaths, Expr.argCalls, PartsCompile]
  | arg :: args, b => by
    rw [Expr.ArgListsInPlace, Expr.argPaths, Expr.argCalls, partsCompile_append_iff]
    simp only [compileArgs_cons_eq_ok_iff]
    exact (exists_both_iff (exists_compile_iff arg) fun _ => exists_compileArgs_iff args).trans
      and_and_and_comm

end

/-- A rule has a filter exactly when it compiles, and otherwise an error of evaluation. -/
theorem exists_filter_iff_compile {e : Expr} :
    (∃ filter, Filter.ofExpr auth e = .ok filter) ↔
      ∃ c b, compile auth .empty e = .ok (c, b) := by
  constructor
  · intro h
    obtain ⟨filter, hfilter⟩ := h
    obtain ⟨c, b, hcompile, -, -⟩ := exists_compile_of_ofExpr hfilter
    exact ⟨c, b, hcompile⟩
  · intro h
    obtain ⟨c, b, hcompile⟩ := h
    exact ⟨⟨c.text, b.params⟩, by rw [Filter.ofExpr, hcompile]⟩

/-- Whatever keeps a rule from having a filter, the error has this one code. -/
theorem code_of_ofExpr {e : Expr} {error : Error} (h : Filter.ofExpr auth e = .error error) :
    error.code = "RULE_EVALUATION_ERROR" := by
  unfold Filter.ofExpr at h
  cases hcompile : compile auth .empty e with
  | error obstacle =>
    rw [hcompile] at h
    cases h
    rfl
  | ok r =>
    rw [hcompile] at h
    cases h

/-! ## What the validator says about it -/

variable (operation : Operation) (fields : List String)

/-- The paths compile when the validator reports no field of the caller and all names are plain. -/
theorem forall_pathCompiles_iff {e : Expr} :
    (∀ path ∈ e.paths, PathCompiles path) ↔
      (∀ field, .authField field ∉ e.violations operation fields) ∧
        ∀ path ∈ e.paths, (∀ name, Variable.ofPath path = .field name → IsName name) ∧
          ∀ field, Variable.ofPath path = .data field → IsName field := by
  simp only [Expr.authField_mem_violations_iff, not_exists, not_and, Bool.not_eq_false]
  have hpath : ∀ path, PathCompiles path ↔
      (∀ field, Variable.ofPath path = .auth field → Variable.isAuthField field = true) ∧
        (∀ name, Variable.ofPath path = .field name → IsName name) ∧
          ∀ field, Variable.ofPath path = .data field → IsName field := by
    intro path
    unfold PathCompiles
    cases Variable.ofPath path <;> simp [isPlainName_iff]
  simp only [hpath]
  constructor
  · intro h
    exact ⟨fun field path hmem => (h path hmem).1 field, fun path hmem => (h path hmem).2⟩
  · intro h path hmem
    exact ⟨fun field => h.1 field path hmem, h.2 path hmem⟩

/-- A call that resolves has a condition unless its name is one of three. -/
theorem hasCondition_iff {name : String} {args : Nat} {f : Function}
    (h : Function.resolve name args = .ok f) :
    hasCondition f = true ↔ name ∉ ["@has_group", "@in_time_range", "@has_permission"] := by
  obtain ⟨hname, -⟩ := Function.resolve_eq_ok_iff.mp h
  have hfound := List.find?_some hname
  rw [← beq_iff_eq.mp hfound]
  cases f <;> decide

/-- The calls compile when the validator reports none of them and none needs data at run time. -/
theorem forall_callCompiles_iff {e : Expr} :
    (∀ call ∈ e.calls, CallCompiles call) ↔
      (∀ fault, .call fault ∉ e.violations operation fields) ∧
        ∀ call ∈ e.calls, call.1 ∉ ["@has_group", "@in_time_range", "@has_permission"] := by
  simp only [Expr.call_mem_violations_iff, not_exists, not_and]
  constructor
  · intro h
    constructor
    · intro fault call hmem herror
      obtain ⟨f, hresolve, -⟩ := h call hmem
      rw [hresolve] at herror
      cases herror
    · intro call hmem
      obtain ⟨f, hresolve, hf⟩ := h call hmem
      exact (hasCondition_iff hresolve).mp hf
  · intro h call hmem
    -- A call that the validator does not report resolves.
    obtain ⟨hresolves, hnames⟩ := h
    cases hresolve : Function.resolve call.1 call.2.length with
    | error fault => exact absurd hresolve (hresolves fault call hmem)
    | ok f => exact ⟨f, hresolve, (hasCondition_iff hresolve).mpr (hnames call hmem)⟩

/-- The columns of a rule are fields of the collection, and it asks for the request body only where
there is one. -/
structure Fits (operation : Operation) (fields : List String) (e : Expr) : Prop where
  columns : ∀ path ∈ e.paths, ∀ name, Variable.ofPath path = .field name → name ∈ fields
  body : ∀ path ∈ e.paths, ∀ field, Variable.ofPath path = .data field →
    operation = .create ∨ operation = .update

/-- A rule that compiles has no other violations than of the fields and the operation. -/
theorem violations_eq_nil_of_compile {operation : Operation} {fields : List String} {e : Expr}
    {c : Condition} (hcompile : compile auth b e = .ok (c, b')) (hfits : Fits operation fields e) :
    e.violations operation fields = [] := by
  obtain ⟨-, hpaths, hcalls⟩ := (exists_compile_iff e).mp ⟨c, b', hcompile⟩
  refine Expr.violations_eq_nil_iff.mpr ⟨?_, ?_⟩
  · intro path hmem
    have hpath := hpaths path hmem
    rw [pathViolations_eq_nil_iff]
    unfold PathCompiles at hpath
    -- That it compiles settles the fields of the caller; the other two are settled by how it fits.
    cases hof : Variable.ofPath path with
    | auth field =>
      rw [hof] at hpath
      exact .inl ⟨field, rfl, List.contains_iff_mem.mp hpath⟩
    | data field =>
      refine .inr (.inl ⟨field, rfl, ?_⟩)
      rcases hfits.body path hmem field hof with rfl | rfl
      · rfl
      · rfl
    | field name => exact .inr (.inr ⟨name, rfl, hfits.columns path hmem name hof⟩)
  · intro call hmem
    obtain ⟨f, hresolve, -⟩ := hcalls call hmem
    exact ⟨f, hresolve⟩

/-- **A rule has a filter exactly when the validator would let it pass but for its fields, and the
database can do the rest.** The validator reports no field of the caller that may not be used and no
faulty call, whatever it is asked for; no call is to a macro that needs data at run time; columns and
fields of the request body have plain names; lists stand on the right of `in` and nowhere else. Every
other rule fails with an error of evaluation. A rule that has a filter and fits an operation of a
collection passes its check. -/
theorem exists_filter_iff (auth : Auth) (e : Expr) (operation : Operation) (fields : List String) :
    ((∃ filter, Filter.ofExpr auth e = .ok filter) ↔
      ((∀ field, .authField field ∉ e.violations operation fields) ∧
        ∀ fault, .call fault ∉ e.violations operation fields) ∧
      (∀ call ∈ e.calls, call.1 ∉ ["@has_group", "@in_time_range", "@has_permission"]) ∧
      (∀ path ∈ e.paths, (∀ name, Variable.ofPath path = .field name → IsName name) ∧
        ∀ field, Variable.ofPath path = .data field → IsName field) ∧
      e.ListsInPlace) ∧
    (∀ error, Filter.ofExpr auth e = .error error → error.code = "RULE_EVALUATION_ERROR") ∧
    ((∃ filter, Filter.ofExpr auth e = .ok filter) → Fits operation fields e →
      e.violations operation fields = [] ∧
        ∀ source, parse source = .ok e → (Guard.rule source).check operation fields = .ok ()) := by
  refine ⟨?_, fun error h => code_of_ofExpr h, ?_⟩
  · rw [exists_filter_iff_compile, exists_compile_iff, PartsCompile,
      forall_pathCompiles_iff operation fields, forall_callCompiles_iff operation fields]
    constructor
    · intro h
      obtain ⟨hlists, ⟨hfields, hnames⟩, hfaults, hmacros⟩ := h
      exact ⟨⟨hfields, hfaults⟩, hmacros, hnames, hlists⟩
    · intro h
      obtain ⟨⟨hfields, hfaults⟩, hmacros, hnames, hlists⟩ := h
      exact ⟨hlists, ⟨hfields, hnames⟩, hfaults, hmacros⟩
  · intro hfilter hfits
    obtain ⟨c, b, hcompile⟩ := exists_filter_iff_compile.mp hfilter
    -- With no violations left, the text passes its check.
    have hnone := violations_eq_nil_of_compile hcompile hfits
    refine ⟨hnone, ?_⟩
    intro source hparse
    rw [Guard.check, hparse]
    dsimp only
    rw [hnone]

/-- A rule for updates that asks for the role of the caller and for the request body, and the same
rule with the list on the left of `in`. -/
theorem exists_filter_iff_update :
    let e : Expr := .connective .and (.call "@has_role" [.path "@request.data.role"])
      (.comparison .member (.path "a") (.literal (.list [.int 1])))
    let e' : Expr := .connective .and (.call "@has_role" [.path "@request.data.role"])
      (.comparison .member (.literal (.list [.int 1])) (.path "a"))
    parse "@has_role(@request.data.role) and a in [1]" = .ok e ∧ Fits .update ["a"] e ∧
      (∃ filter, Filter.ofExpr .empty e = .ok filter) ∧
      (Guard.rule "@has_role(@request.data.role) and a in [1]").check .update ["a"] = .ok () ∧
      ¬∃ filter, Filter.ofExpr .empty e' = .ok filter := by
  intro e e'
  have hparse : parse "@has_role(@request.data.role) and a in [1]" = .ok e := by
    with_unfolding_all rfl
  have hfits : Fits .update ["a"] e := by
    have hpaths : e.paths = ["@request.data.role", "a"] := rfl
    have hrole : Variable.ofPath "@request.data.role" = .data "role" := rfl
    have ha : Variable.ofPath "a" = .field "a" := rfl
    constructor
    · rw [hpaths]
      simp [hrole, ha]
    · rw [hpaths]
      simp
  obtain ⟨-, -, hpasses⟩ := exists_filter_iff .empty e .update ["a"]
  have hfilter : ∃ filter, Filter.ofExpr .empty e = .ok filter := ⟨_, rfl⟩
  refine ⟨hparse, hfits, hfilter, (hpasses hfilter hfits).2 _ hparse, ?_⟩
  intro h
  obtain ⟨-, -, -, -, hlist, -⟩ := (exists_filter_iff .empty e' .update ["a"]).1.mp h
  exact hlist _ rfl

end Sql

end AccessRules
