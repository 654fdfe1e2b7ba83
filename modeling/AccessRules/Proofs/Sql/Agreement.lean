import AccessRules.Proofs.Sql.Reading

/-!
# The filter of a rule agrees with the rule

A rule can be evaluated on a record, or compiled and put behind `WHERE`. For rules that compare
fields, constants and what is known about the request, the two ways select the same records:

> `holds_eq_truth`: the text of the filter is read as a clause that is true in a row, with the
> values of the parameters and of the request body put in, exactly when the rule holds of the same
> values.

A filter keeps nothing of the request body, so whoever runs the query puts its fields in.
-/

namespace AccessRules.Sql

open Rule

/-! ## The rules this is about -/

/-- A field, or a constant that is no list. -/
inductive Comparable : Expr → Prop
  | path (name : String) : Comparable (.path name)
  | literal {value : Literal} : (∀ items, value ≠ .list items) → Comparable (.literal value)

/-- Comparisons of such operands and memberships in lists, joined in any way. -/
inductive Comparisons : Expr → Prop
  | comparison {op : Comparison} {left right : Expr} : op ≠ .member → Comparable left →
      Comparable right → Comparisons (.comparison op left right)
  | member {operand : Expr} (items : List Literal) : Comparable operand →
      Comparisons (.comparison .member operand (.literal (.list items)))
  | connective {left right : Expr} (op : Connective) : Comparisons left → Comparisons right →
      Comparisons (.connective op left right)
  | not {operand : Expr} : Comparisons operand → Comparisons (.not operand)

theorem Comparable.calls_eq_nil {e : Expr} (h : Comparable e) : e.calls = [] := by
  cases h <;> rw [Expr.calls]

/-- There are no calls in what is made of comparisons of fields and constants. -/
theorem Comparisons.calls_eq_nil {e : Expr} (h : Comparisons e) : e.calls = [] := by
  induction h with
  | comparison _ hleft hright =>
    rw [Expr.calls, hleft.calls_eq_nil, hright.calls_eq_nil, List.append_nil]
  | member items hoperand =>
    rw [Expr.calls, hoperand.calls_eq_nil, Expr.calls, List.append_nil]
  | connective _ _ _ ihl ihr => rw [Expr.calls, ihl, ihr, List.append_nil]
  | not _ ih => rw [Expr.calls, ih]

/-- No column of a rule is a keyword. Paths to the caller and to the request body never are. -/
def NoKeywords (e : Expr) : Prop :=
  ∀ path ∈ e.paths, isKeyword path = false

variable {auth : Auth} {b b' : Bindings} {c : Condition}

/-! ## What such a rule compiles to -/

/-- The numbers of the items of a list are as many as the items. -/
theorem compileItems_ne_nil {items : List Literal} (h : items ≠ []) :
    (compileItems b items).1 ≠ [] := by
  cases items with
  | nil => exact absurd rfl h
  | cons item items =>
    rw [compileItems]
    exact List.cons_ne_nil _ _

/-- A field or a constant becomes a condition that names an operand, for no keyword comes up that
would be read as something else. -/
theorem exists_names_of_compile {e : Expr} (hform : Comparable e) (hcolumns : NoKeywords e)
    (h : compile auth b e = .ok (c, b')) : ∃ operand, Names c operand := by
  cases hform with
  | path name =>
    have hname : name ∈ (Expr.path name).paths := by
      rw [Expr.paths]
      exact List.mem_singleton_self name
    rcases compilePath_eq_ok_iff.mp (compile_path_eq_ok_iff.mp h) with
      ⟨field, -, -, rfl, -⟩ | ⟨field, -, -, rfl, -⟩ | ⟨column, hof, -, rfl, -⟩
    · exact ⟨_, .parameter _⟩
    · exact ⟨_, .parameter _⟩
    · -- The column is the path itself, and no path here is a keyword.
      have hcolumn := Variable.path_ofPath name
      rw [hof] at hcolumn
      have hname := hcolumns name hname
      rw [← hcolumn] at hname
      exact ⟨_, .column hname⟩
  | literal hscalar =>
    obtain ⟨-, rfl, -⟩ := compile_literal_eq_ok_iff.mp h
    exact ⟨_, .parameter _⟩

/-- The condition of such a rule says a clause. -/
theorem exists_says_of_compile {e : Expr} (hform : Comparisons e) {b b' : Bindings}
    {c : Condition} (hcolumns : NoKeywords e) (h : compile auth b e = .ok (c, b')) :
    ∃ k, Says c k := by
  induction hform generalizing b b' c with
  | comparison hop hleft hright =>
    rw [NoKeywords, Expr.paths, List.forall_mem_append] at hcolumns
    obtain ⟨l, b₁, hl, r, b₂, hr, rfl, -⟩ := (compile_comparison_eq_ok_iff hop).mp h
    obtain ⟨x, hx⟩ := exists_names_of_compile hleft hcolumns.1 hl
    obtain ⟨y, hy⟩ := exists_names_of_compile hright hcolumns.2 hr
    exact ⟨_, .comparison hop hx hy⟩
  | member items hoperand =>
    rw [NoKeywords, Expr.paths, List.forall_mem_append] at hcolumns
    obtain ⟨l, b₁, hl, hmember⟩ := compile_member_eq_ok_iff.mp h
    obtain ⟨_, hitems, ⟨-, rfl, -⟩ | ⟨hne, rfl, -⟩⟩ := compileMembership_eq_ok_iff.mp hmember
    · -- nothing of the operand is left
      exact ⟨_, .never⟩
    · obtain ⟨x, hx⟩ := exists_names_of_compile hoperand hcolumns.1 hl
      exact ⟨_, .oneOf (compileItems_ne_nil hne) hx⟩
  | connective op hleft hright ihl ihr =>
    rw [NoKeywords, Expr.paths, List.forall_mem_append] at hcolumns
    obtain ⟨l, b₁, hl, r, b₂, hr, rfl, -⟩ := compile_connective_eq_ok_iff.mp h
    obtain ⟨k, hk⟩ := ihl hcolumns.1 hl
    obtain ⟨k', hk'⟩ := ihr hcolumns.2 hr
    exact ⟨_, .connective op hk hk'⟩
  | not hoperand ih =>
    rw [NoKeywords, Expr.paths] at hcolumns
    obtain ⟨d, b₁, hd, rfl, -⟩ := compile_not_eq_ok_iff.mp h
    obtain ⟨k, hk⟩ := ih hcolumns hd
    exact ⟨_, .not hk⟩

/-! ## What is bound on the way -/

mutual

/-- A rule that refers to a field of the caller binds it. -/
theorem mem_bound_of_mem_paths {path field : String} (hof : Variable.ofPath path = .auth field) :
    (e : Expr) → {b b' : Bindings} → {c : Condition} → compile auth b e = .ok (c, b') →
      path ∈ e.paths → (.auth field, auth.get field) ∈ b'.bound
  | .literal _, b, b', c, _, hpath => by
    rw [Expr.paths] at hpath
    cases hpath
  | .path name, b, b', c, h, hpath => by
    rw [Expr.paths, List.mem_singleton] at hpath
    subst hpath
    rcases compilePath_eq_ok_iff.mp (compile_path_eq_ok_iff.mp h) with
      ⟨f, hf, -, -, rfl⟩ | ⟨f, hf, -, -, -⟩ | ⟨f, hf, -, -, -⟩
    · rw [hof] at hf
      cases hf
      exact List.mem_cons_self ..
    · rw [hof] at hf
      cases hf
    · rw [hof] at hf
      cases hf
  | .comparison op left right, b, b', c, h, hpath => by
    rw [Expr.paths, List.mem_append] at hpath
    by_cases hop : op = .member
    · rw [hop] at h
      obtain ⟨l, b₁, hleft, hright⟩ := compile_member_eq_ok_iff.mp h
      -- A field that the left side binds is still bound behind the right side.
      have hgrows : Grows auth b₁ b' := compileMembership_grows hright
      rcases hpath with hpath | hpath
      · exact hgrows.suffix.mem (mem_bound_of_mem_paths hof left hleft hpath)
      · obtain ⟨items, rfl, -⟩ := compileMembership_eq_ok_iff.mp hright
        rw [Expr.paths] at hpath
        cases hpath
    · obtain ⟨l, b₁, hleft, r, b₂, hright, -, rfl⟩ := (compile_comparison_eq_ok_iff hop).mp h
      rcases hpath with hpath | hpath
      · exact (compile_grows right hright).suffix.mem
          (mem_bound_of_mem_paths hof left hleft hpath)
      · exact mem_bound_of_mem_paths hof right hright hpath
  | .connective op left right, b, b', c, h, hpath => by
    rw [Expr.paths, List.mem_append] at hpath
    obtain ⟨l, b₁, hleft, r, b₂, hright, -, rfl⟩ := compile_connective_eq_ok_iff.mp h
    rcases hpath with hpath | hpath
    · exact (compile_grows right hright).suffix.mem (mem_bound_of_mem_paths hof left hleft hpath)
    · exact mem_bound_of_mem_paths hof right hright hpath
  | .not operand, b, b', c, h, hpath => by
    rw [Expr.paths] at hpath
    obtain ⟨d, b₁, hoperand, -, rfl⟩ := compile_not_eq_ok_iff.mp h
    exact mem_bound_of_mem_paths hof operand hoperand hpath
  | .call name args, b, b', c, h, hpath => by
    rw [Expr.paths] at hpath
    obtain ⟨f, -, -, cs, b₁, hargs, hcall⟩ := compile_call_eq_ok_iff.mp h
    have hmem := mem_bound_of_mem_argPaths hof args hargs hpath
    rcases bindings_of_compileCall hcall with rfl | ⟨own, -, rfl⟩
    · exact hmem
    · exact List.mem_cons_of_mem _ hmem

/-- A path to the caller in some arguments binds the field that it leads to. -/
theorem mem_bound_of_mem_argPaths {path field : String}
    (hof : Variable.ofPath path = .auth field) :
    (args : List Expr) → {b b' : Bindings} → {cs : List Condition} →
      compileArgs auth b args = .ok (cs, b') → path ∈ Expr.argPaths args →
      (.auth field, auth.get field) ∈ b'.bound
  | [], b, b', cs, _, hpath => by
    rw [Expr.argPaths] at hpath
    cases hpath
  | arg :: args, b, b', cs, h, hpath => by
    rw [Expr.argPaths, List.mem_append] at hpath
    obtain ⟨d, b₁, harg, ds, b₂, hargs, -, rfl⟩ := compileArgs_cons_eq_ok_iff.mp h
    rcases hpath with hpath | hpath
    · exact (compileArgs_grows args hargs).suffix.mem
        (mem_bound_of_mem_paths hof arg harg hpath)
    · exact mem_bound_of_mem_argPaths hof args hargs hpath

end

/-! ## Putting values in -/

/-- What a variable refers to: what is known about the caller, the request body or a row. -/
def Auth.valueOf (auth : Auth) (row payload : String → Value) : Variable → Value
  | .auth field => auth.get field
  | .data field => payload field
  | .field name => row name

/-- The value that is put in for a placeholder: a field of the request body, and otherwise the value
of the parameter. -/
def Filter.valueOf (filter : Filter) (payload : String → Value) (name : String) : Value :=
  match Variable.behind? "data_" name with
  | some field => payload field
  | none => (filter.params.find? name).getD .null

/-- For the placeholder of a field of the request body the field itself is put in. -/
theorem Filter.valueOf_data (filter : Filter) (payload : String → Value) (field : String) :
    filter.valueOf payload (Parameter.data field).name = payload field := by
  have hbehind : Variable.behind? "data_" ("data_" ++ field) = some field := by
    simp [Variable.behind?, String.toList_append]
  rw [Filter.valueOf, Parameter.name, hbehind]

/-- The parameters that are no fields of the request body have the values they are bound to. -/
theorem Filter.valueOf_bound {constants : List Value} {sql : String} (h : b.Sound auth constants)
    {p : Parameter} {v : Value} (hp : ∀ field, p ≠ .data field) (hmem : (p, v) ∈ b.bound)
    (payload : String → Value) : Filter.valueOf ⟨sql, b.params⟩ payload p.name = v := by
  have hbehind : Variable.behind? "data_" p.name = none := by
    cases p with
    | constant n => simp [Variable.behind?, Parameter.name, String.toList_append]
    | auth field => simp [Variable.behind?, Parameter.name, String.toList_append]
    | data field => exact absurd rfl (hp field)
  rw [Filter.valueOf, hbehind]
  show (b.params.find? p.name).getD .null = v
  rw [h.find?_params hmem, Option.getD_some]

/-- **The filter of a rule selects the rows in which the rule holds.** For a rule made of
comparisons, whose columns are no keywords, the text of the filter says a clause. In every row and
for every request body the clause is true exactly when the rule holds in a context that has the same
fields, and what is known about the caller. -/
theorem holds_eq_truth {e : Expr} {filter : Filter} (hform : Comparisons e)
    (hcolumns : NoKeywords e) (h : Filter.ofExpr auth e = .ok filter) :
    ∃ clause, read filter.sql = some clause ∧
      ∀ (row payload : String → Value) (context : Context) (hour : Hour),
        (∀ path ∈ e.paths,
          context.resolve path = auth.valueOf row payload (Variable.ofPath path)) →
        e.holds context hour = .ok (clause.truth row (filter.valueOf payload)) := by
  unfold Filter.ofExpr at h
  cases hcompile : compile auth .empty e with
  | error o =>
    rw [hcompile] at h
    cases h
  | ok r =>
    obtain ⟨c, b⟩ := r
    rw [hcompile] at h
    cases h
    obtain ⟨clause, hsays⟩ := exists_says_of_compile hform hcolumns hcompile
    obtain ⟨constants, hsound⟩ := Bindings.sound_of_compile hcompile
    refine ⟨clause, read_text hsays (compile_plain e hcompile), ?_⟩
    intro row payload context hour hagrees
    let env : Env :=
      ⟨row, fun p => Filter.valueOf ⟨c.text, b.params⟩ payload p.name⟩
    -- What compiling bound is what the parameters stand for; the request body is never bound.
    have hknows : env.Knows b := by
      intro n v hmem
      exact Filter.valueOf_bound hsound (fun _ h => by cases h) hmem payload
    have hpaths : ∀ path ∈ e.paths, context.resolve path = env.variable (.ofPath path) := by
      intro path hpath
      rw [hagrees path hpath]
      cases hof : Variable.ofPath path with
      | auth field =>
        have hmem := mem_bound_of_mem_paths hof e hcompile hpath
        exact (Filter.valueOf_bound hsound (fun _ h => by cases h) hmem payload).symm
      | data field => exact (Filter.valueOf_data _ payload field).symm
      | field name => rfl
    have hvalue : e.evaluate context hour = .ok (c.value env) :=
      evaluate_of_compile e hform.calls_eq_nil hpaths hcompile hknows
    have htruth : c.value env =
        .bool (clause.truth row (Filter.valueOf ⟨c.text, b.params⟩ payload)) :=
      value_of_says (fun _ => rfl) hsays
    rw [Expr.holds, hvalue, htruth]
    rfl

/-- The rule `owner == @request.auth.id and not (state in ['draft', null])` for the caller 7, in a
row that it admits. -/
theorem holds_eq_truth_owner_and_not_draft :
    let auth : Auth := ⟨[("id", .int 7)]⟩
    let e : Expr := .connective .and
      (.comparison .eq (.path "owner") (.path "@request.auth.id"))
      (.not (.comparison .member (.path "state")
        (.literal (.list [.string "draft", .null]))))
    let row : String → Value := fun name => if name = "owner" then .int 7 else .string "open"
    Comparisons e ∧ NoKeywords e ∧ ∃ filter, Filter.ofExpr auth e = .ok filter ∧
      filter.sql = "(owner = :auth_id AND NOT (state IN (:param_0, :param_1)))" ∧
      ∃ clause, read filter.sql = some clause ∧
        clause.truth row (filter.valueOf fun _ => .null) = true := by
  intro auth e row
  have hform : Comparisons e :=
    .connective .and (.comparison nofun (.path _) (.path _)) (.not (.member _ (.path _)))
  have hcolumns : NoKeywords e := by
    show ∀ path ∈ e.paths, isKeyword path = false
    decide +kernel
  have hsql : (Filter.ofExpr auth e).toOption.map Filter.sql =
      some "(owner = :auth_id AND NOT (state IN (:param_0, :param_1)))" := by
    decide +kernel
  cases hfilter : Filter.ofExpr auth e with
  | error o =>
    rw [hfilter] at hsql
    cases hsql
  | ok filter =>
    rw [hfilter] at hsql
    refine ⟨hform, hcolumns, filter, rfl, Option.some.inj hsql, ?_⟩
    obtain ⟨clause, hread, htruth⟩ := holds_eq_truth hform hcolumns hfilter
    refine ⟨clause, hread, ?_⟩
    let context : Context := ⟨[("@request", .map [("auth", .map [("id", .int 7)])]),
      ("owner", .int 7), ("state", .string "open")]⟩
    have hholds : e.holds context 0 = .ok true := rfl
    have hagrees : ∀ path ∈ e.paths,
        context.resolve path = auth.valueOf row (fun _ => .null) (Variable.ofPath path) := by
      have hpaths : e.paths = ["owner", "@request.auth.id", "state"] := rfl
      rw [hpaths]
      simp only [List.forall_mem_cons]
      exact ⟨rfl, rfl, rfl, by simp⟩
    have htrue := htruth row (fun _ => .null) context 0 hagrees
    rw [hholds] at htrue
    exact (Except.ok.inj htrue).symm

end AccessRules.Sql
