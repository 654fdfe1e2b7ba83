import AccessRules.Proofs.Dict
import AccessRules.Proofs.Sql.Placeholders

/-!
# What the parameters of a filter are bound to

The constants of a rule are numbered from left to right, the items of a list one by one, and the
number is threaded through all of compiling. What a part of a rule binds therefore depends on how
many constants came before it:

> `Binds auth b b' ps values fields`: from `b` to `b'` exactly the values were bound under the next
> numbers, and the fields to what they stand for; the condition shows constants of these numbers
> only, in increasing order.

`Binds` is kept when parts are put one behind the other (`Binds.append`), so it holds of every rule
(`binds_of_compile`). From no bindings on it says what the parameters of the filter are
(`filter_binds_sources`).
-/

namespace AccessRules

open Rule

/-! ## The constants and fields of a rule -/

namespace Rule.Expr

mutual

/-- The constants of a rule from left to right; the items of a list are one constant each, a list
among them too. -/
def constants : Expr → List Literal
  | .literal (.list items) => items
  | .literal value => [value]
  | .path _ => []
  | .comparison _ left right => constants left ++ constants right
  | .connective _ left right => constants left ++ constants right
  | .not operand => constants operand
  | .call _ args => argConstants args

/-- The constants of some arguments. -/
def argConstants : List Expr → List Literal
  | [] => []
  | arg :: args => constants arg ++ argConstants args

end

mutual

/-- The fields of the caller and of the request body that paths refer to and that macros look up by
themselves. -/
def fields : Expr → List Origin
  | .literal _ => []
  | .path name => pathOrigins name
  | .comparison _ left right => fields left ++ fields right
  | .connective _ left right => fields left ++ fields right
  | .not operand => fields operand
  | .call name args => argFields args ++ callOrigins name

/-- The fields of some arguments. -/
def argFields : List Expr → List Origin
  | [] => []
  | arg :: args => fields arg ++ argFields args

end

end Rule.Expr

namespace Sql

variable {auth : Auth} {b b' : Bindings} {c : Condition}

/-- A parameter stands for a value: the constant with a number for the one that has it if numbers
start at `start`, a field of the caller for what is known about it, a field of the request body for
null. -/
def StandsFor (auth : Auth) (start : Nat) (values : List Value) (fields : List Origin) :
    Parameter → Value → Prop
  | .constant n, v => start ≤ n ∧ values[n - start]? = some v
  | .auth field, v => .caller field ∈ fields ∧ v = auth.get field
  | .data field, v => .body field ∈ fields ∧ v = .null

/-- The number of a constant. -/
def Parameter.number? : Parameter → Option Nat
  | .constant n => some n
  | _ => none

/-- The numbers of the constants among some parameters. -/
def numbers (ps : List Parameter) : List Nat :=
  ps.filterMap Parameter.number?

@[simp] theorem numbers_append (ps ps' : List Parameter) :
    numbers (ps ++ ps') = numbers ps ++ numbers ps' :=
  List.filterMap_append

theorem numbers_constants (ns : List Nat) : numbers (ns.map .constant) = ns := by
  rw [numbers, List.filterMap_map]
  exact List.filterMap_some

/-- From `b` to `b'` the values were bound under the next numbers and the fields to what they stand
for, and nothing else; `ns` are some of these numbers, in order. -/
structure Binds (auth : Auth) (b b' : Bindings) (ns : List Nat) (values : List Value)
    (fields : List Origin) : Prop where
  count : b'.constants = b.constants + values.length
  bound : ∀ p v, (p, v) ∈ b'.bound ↔
    (p, v) ∈ b.bound ∨ StandsFor auth b.constants values fields p v
  range : ∀ n ∈ ns, b.constants ≤ n ∧ n < b'.constants
  increasing : ns.Pairwise (· < ·)

/-- What stands for values that are bound one behind the other. -/
theorem standsFor_append {start : Nat} {values values' : List Value} {fields fields' : List Origin}
    {p : Parameter} {v : Value} :
    StandsFor auth start (values ++ values') (fields ++ fields') p v ↔
      StandsFor auth start values fields p v ∨
        StandsFor auth (start + values.length) values' fields' p v := by
  cases p with
  | constant n =>
    simp only [StandsFor]
    by_cases hn : n - start < values.length
    · -- The number is one of the first, and too small for the others.
      rw [List.getElem?_append_left hn]
      have hsmall : start ≤ n → ¬ start + values.length ≤ n := by omega
      grind
    · rw [List.getElem?_append_right (Nat.le_of_not_lt hn), Nat.sub_add_eq]
      have hnone : values[n - start]? = none := List.getElem?_eq_none (Nat.le_of_not_lt hn)
      have hlarge : start + values.length ≤ n ↔ start ≤ n := by omega
      simp [hnone, hlarge]
  | auth field => simp only [StandsFor, List.mem_append, or_and_right]
  | data field => simp only [StandsFor, List.mem_append, or_and_right]

namespace Binds

variable {b₁ b₂ : Bindings} {ns ns' : List Nat} {values values' : List Value}
  {fields fields' : List Origin}

theorem refl (auth : Auth) (b : Bindings) : Binds auth b b [] [] [] := by
  refine ⟨rfl, ?_, List.forall_mem_nil _, .nil⟩
  intro p v
  cases p <;> simp [StandsFor]

/-- What is bound one behind the other. -/
theorem append (h : Binds auth b b₁ ns values fields) (h' : Binds auth b₁ b₂ ns' values' fields') :
    Binds auth b b₂ (ns ++ ns') (values ++ values') (fields ++ fields') := by
  have hcount := h.count
  have hcount' := h'.count
  refine ⟨?_, ?_, ?_, List.pairwise_append.mpr ⟨h.increasing, h'.increasing, ?_⟩⟩
  · rw [List.length_append]
    omega
  · intro p v
    rw [h'.bound, h.bound, or_assoc, standsFor_append, hcount]
  · intro n hn
    rcases List.mem_append.mp hn with hn | hn
    · have := h.range n hn
      omega
    · have := h'.range n hn
      omega
  · -- The numbers of the second part start where those of the first end.
    intro n hn m hm
    have := h.range n hn
    have := h'.range m hm
    omega

/-- Numbers that do not stand in the condition are used up all the same. -/
theorem hide (h : Binds auth b b' ns values fields) : Binds auth b b' [] values fields :=
  ⟨h.count, h.bound, List.forall_mem_nil _, .nil⟩

/-- Binding a constant uses up the next number. -/
theorem bindConstant (auth : Auth) (b : Bindings) (value : Value) :
    Binds auth b (b.bindConstant value) [b.constants] [value] [] := by
  refine ⟨rfl, ?_, ?_, List.pairwise_singleton _ _⟩
  · intro p v
    show (p, v) ∈ (.constant b.constants, value) :: b.bound ↔ _
    rw [List.mem_cons, or_comm]
    refine or_congr .rfl ?_
    cases p with
    | constant n =>
      simp only [StandsFor, Prod.mk.injEq, Parameter.constant.injEq, List.getElem?_singleton]
      grind
    | auth field => simp [StandsFor]
    | data field => simp [StandsFor]
  · intro n hn
    obtain rfl := List.mem_singleton.mp hn
    exact ⟨Nat.le_refl _, Nat.lt_succ_self _⟩

/-- Binding a field of the caller takes what is known about it, and no number. -/
theorem bindAuth (auth : Auth) (b : Bindings) (field : String) :
    Binds auth b (b.bind (.auth field) (auth.get field)) [] [] [.caller field] := by
  refine ⟨rfl, ?_, List.forall_mem_nil _, .nil⟩
  intro p v
  show (p, v) ∈ (.auth field, auth.get field) :: b.bound ↔ _
  rw [List.mem_cons, or_comm]
  refine or_congr .rfl ?_
  cases p with
  | constant n => simp [StandsFor]
  | auth field' => simp +contextual [StandsFor]
  | data field' => simp [StandsFor]

/-- Binding a field of the request body leaves its value open, and takes no number. -/
theorem bindData (auth : Auth) (b : Bindings) (field : String) :
    Binds auth b (b.bind (.data field) .null) [] [] [.body field] := by
  refine ⟨rfl, ?_, List.forall_mem_nil _, .nil⟩
  intro p v
  show (p, v) ∈ (.data field, .null) :: b.bound ↔ _
  rw [List.mem_cons, or_comm]
  refine or_congr .rfl ?_
  cases p <;> simp [StandsFor]

end Binds

/-! ## What each form binds -/

/-- The items of a list are bound under the next numbers, which stand in the condition. -/
theorem binds_compileItems : (b : Bindings) → (items : List Literal) →
    Binds auth b (compileItems b items).2 (compileItems b items).1 (items.map Literal.toValue) []
  | b, [] => .refl auth b
  | b, item :: items =>
    (Binds.bindConstant auth b item.toValue).append (binds_compileItems _ items)

/-- A call binds what its macro looks up; of constants it shows those of its arguments. -/
theorem binds_compileCall {name : String} {f : Function} {args : List Condition}
    (hname : Function.ofName? name = some f) (h : compileCall auth f args b = .ok (c, b')) :
    numbers c.parameters = numbers (args.flatMap Condition.parameters) ∧
      Binds auth b b' [] [] (Expr.callOrigins name) := by
  unfold Expr.callOrigins
  rw [hname]
  rcases compileCall_cases h with ⟨hf, pattern, text, part, rfl, rfl, rfl⟩ |
    ⟨rfl, role, rfl, rfl, rfl⟩ | ⟨hf, rfl, rfl, rfl⟩
  · refine ⟨by simp [Condition.parameters], ?_⟩
    rcases hf with rfl | rfl | rfl <;> exact .refl auth _
  · exact ⟨by simp [Condition.parameters]; rfl, .bindAuth auth b "role"⟩
  · refine ⟨rfl, ?_⟩
    rcases hf with rfl | rfl <;> exact .bindAuth auth b "id"

mutual

/-- **Compiling binds the constants of a rule in order, and the fields that it refers to.** -/
theorem binds_of_compile : (e : Expr) → {b b' : Bindings} → {c : Condition} →
    compile auth b e = .ok (c, b') →
      Binds auth b b' (numbers c.parameters) (e.constants.map Literal.toValue) e.fields
  | .literal value, b, b', c, h => by
    obtain ⟨hscalar, rfl, rfl⟩ := compile_literal_eq_ok_iff.mp h
    have hconstants : (Expr.literal value).constants = [value] := by
      rw [Expr.constants]
      exact hscalar
    rw [hconstants, Expr.fields]
    exact .bindConstant auth b value.toValue
  | .path name, b, b', c, h => by
    rw [Expr.constants, Expr.fields, Expr.pathOrigins]
    rcases compilePath_eq_ok_iff.mp (compile_path_eq_ok_iff.mp h) with
      ⟨field, hof, -, rfl, rfl⟩ | ⟨field, hof, -, rfl, rfl⟩ | ⟨field, hof, -, rfl, rfl⟩
    · rw [hof]
      exact .bindAuth auth b field
    · rw [hof]
      exact .bindData auth b field
    · rw [hof]
      exact .refl auth _
  | .comparison op left right, b, b', c, h => by
    rw [Expr.constants, Expr.fields, List.map_append]
    by_cases hop : op = .member
    · rw [hop] at h
      obtain ⟨l, b₁, hleft, hmember⟩ := compile_member_eq_ok_iff.mp h
      have hbinds := binds_of_compile left hleft
      obtain ⟨items, rfl, ⟨rfl, rfl, rfl⟩ | ⟨-, rfl, rfl⟩⟩ :=
        compileMembership_eq_ok_iff.mp hmember
      · -- The placeholders of the operand go with its text, but what was bound for them stays.
        exact hbinds.hide.append (.refl auth b')
      · have hall := hbinds.append (binds_compileItems b₁ items)
        rw [Condition.parameters, numbers_append, numbers_constants]
        exact hall
    · obtain ⟨l, b₁, hleft, r, b₂, hright, rfl, rfl⟩ := (compile_comparison_eq_ok_iff hop).mp h
      rw [Condition.parameters, numbers_append]
      exact (binds_of_compile left hleft).append (binds_of_compile right hright)
  | .connective op left right, b, b', c, h => by
    obtain ⟨l, b₁, hleft, r, b₂, hright, rfl, rfl⟩ := compile_connective_eq_ok_iff.mp h
    rw [Expr.constants, Expr.fields, List.map_append, Condition.parameters, numbers_append]
    exact (binds_of_compile left hleft).append (binds_of_compile right hright)
  | .not operand, b, b', c, h => by
    obtain ⟨d, b₁, hoperand, rfl, rfl⟩ := compile_not_eq_ok_iff.mp h
    rw [Expr.constants, Expr.fields, Condition.parameters]
    exact binds_of_compile operand hoperand
  | .call name args, b, b', c, h => by
    obtain ⟨f, hresolve, -, cs, b₁, hargs, hcall⟩ := compile_call_eq_ok_iff.mp h
    obtain ⟨hname, -⟩ := Function.resolve_eq_ok_iff.mp hresolve
    obtain ⟨hnumbers, hown⟩ := binds_compileCall hname hcall
    have hall := (binds_of_compileArgs args hargs).append hown
    rw [List.append_nil, List.append_nil] at hall
    rw [Expr.constants, Expr.fields, hnumbers]
    exact hall

theorem binds_of_compileArgs : (args : List Expr) → {b b' : Bindings} → {cs : List Condition} →
    compileArgs auth b args = .ok (cs, b') →
      Binds auth b b' (numbers (cs.flatMap Condition.parameters))
        ((Expr.argConstants args).map Literal.toValue) (Expr.argFields args)
  | [], b, b', cs, h => by
    rw [compileArgs] at h
    cases h
    rw [Expr.argConstants, Expr.argFields]
    exact .refl auth _
  | arg :: args, b, b', cs, h => by
    obtain ⟨d, b₁, harg, ds, b₂, hargs, rfl, rfl⟩ := compileArgs_cons_eq_ok_iff.mp h
    rw [Expr.argConstants, Expr.argFields, List.map_append, List.flatMap_cons, numbers_append]
    exact (binds_of_compile arg harg).append (binds_of_compileArgs args hargs)

end

/-! ## The parameters of a filter -/

/-- The entries of the parameters are what is bound, by name. -/
theorem Bindings.mem_params_iff {constants : List Value} (h : b.Sound auth constants)
    {name : String} {v : Value} :
    (name, v) ∈ b.params ↔ ∃ p, p.name = name ∧ (p, v) ∈ b.bound := by
  have hordered : b.params.Ordered := Dict.ordered_ofList _
  rw [hordered.mem_iff]
  constructor
  · intro hfind
    rw [Bindings.find?_params, Option.map_eq_some_iff] at hfind
    obtain ⟨x, hx, rfl⟩ := hfind
    have hfound := List.find?_some hx
    have hname : x.1.name = name := of_decide_eq_true hfound
    exact ⟨x.1, hname, List.mem_of_find?_eq_some hx⟩
  · rintro ⟨p, rfl, hmem⟩
    exact h.find?_params hmem

/-- What compiling from nothing binds. -/
theorem mem_bound_iff {e : Expr} (h : compile auth .empty e = .ok (c, b)) {p : Parameter}
    {v : Value} : (p, v) ∈ b.bound ↔
      StandsFor auth 0 (e.constants.map Literal.toValue) e.fields p v := by
  rw [(binds_of_compile e h).bound]
  exact or_iff_right (List.not_mem_nil)

/-- **The parameters of a filter carry the data of the rule in order.** They are the constant number
`i` of the rule from left to right under `param_i`, each field of the caller that a path refers to or
a macro looks up under its name with what is known about it, and each field of the request body with
null; there is nothing else, and no name comes up twice. In the text the constants stand at most once
each, with their numbers increasing. No two sources have the same name. -/
theorem filter_binds_sources {e : Expr} {filter : Filter} (h : Filter.ofExpr auth e = .ok filter) :
    (∀ name v, (name, v) ∈ filter.params ↔
      (∃ (i : Nat) (l : Literal), e.constants[i]? = some l ∧ name = "param_" ++ toString i ∧
        v = l.toValue) ∨
      (∃ field, .caller field ∈ e.fields ∧ name = "auth_" ++ field ∧ v = auth.get field) ∨
      ∃ field, .body field ∈ e.fields ∧ name = "data_" ++ field ∧ v = .null) ∧
    filter.params.Ordered ∧
    (∃ ps : List Parameter, placeholders filter.sql = some (ps.map Parameter.name) ∧
      (numbers ps).Pairwise (· < ·) ∧ ∀ n ∈ numbers ps, n < e.constants.length) ∧
    ∀ p q : Parameter, p.name = q.name → p = q := by
  obtain ⟨c, b, hcompile, hsql, hparams⟩ := exists_compile_of_ofExpr h
  obtain ⟨constants, hsound⟩ := Bindings.sound_of_compile hcompile
  have hbinds := binds_of_compile e hcompile
  -- Counting begins at zero, so the next number is how many constants there are.
  have hcount : b.constants = e.constants.length := by
    rw [hbinds.count, List.length_map]
    exact Nat.zero_add _
  refine ⟨?_, ?_, ⟨c.parameters, ?_, hbinds.increasing, ?_⟩,
    fun p q => Parameter.name_injective⟩
  · intro name v
    rw [hparams, Bindings.mem_params_iff hsound]
    simp only [mem_bound_iff hcompile]
    constructor
    · rintro ⟨p, rfl, hstands⟩
      cases p with
      | constant i =>
        obtain ⟨-, hget⟩ := hstands
        rw [Nat.sub_zero, List.getElem?_map] at hget
        obtain ⟨l, hl, rfl⟩ := Option.map_eq_some_iff.mp hget
        exact .inl ⟨i, l, hl, rfl, rfl⟩
      | auth field => exact .inr (.inl ⟨field, hstands.1, rfl, hstands.2⟩)
      | data field => exact .inr (.inr ⟨field, hstands.1, rfl, hstands.2⟩)
    · rintro (⟨i, l, hl, rfl, rfl⟩ | ⟨field, hfield, rfl, rfl⟩ | ⟨field, hfield, rfl, rfl⟩)
      · refine ⟨.constant i, rfl, Nat.zero_le i, ?_⟩
        rw [Nat.sub_zero, List.getElem?_map, hl, Option.map_some]
      · exact ⟨.auth field, rfl, hfield, rfl⟩
      · exact ⟨.data field, rfl, hfield, rfl⟩
  · rw [hparams]
    exact Dict.ordered_ofList _
  · rw [hsql, placeholders_text (compile_plain e hcompile)]
  · intro n hn
    rw [← hcount]
    exact (hbinds.range n hn).2

/-- In the rule `@has_role("admin") or status in ["draft", [2]] and note == @request.data.note` the
list among the items is the third constant. -/
theorem filter_binds_nested_list :
    let e : Expr := .connective .or (.call "@has_role" [.literal (.string "admin")])
      (.connective .and
        (.comparison .member (.path "status")
          (.literal (.list [.string "draft", .list [.int 2]])))
        (.comparison .eq (.path "note") (.path "@request.data.note")))
    let auth : Auth := ⟨[("role", .string "editor")]⟩
    ∃ filter, Filter.ofExpr auth e = .ok filter ∧
      filter.sql =
        "(:auth_role = :param_0 OR (status IN (:param_1, :param_2) AND note = :data_note))" ∧
      ("param_2", .list [.int 2]) ∈ filter.params ∧
      ("auth_role", .string "editor") ∈ filter.params ∧ ("data_note", .null) ∈ filter.params := by
  intro e auth
  have hfilter : Filter.ofExpr auth e = .ok ⟨_, _⟩ := rfl
  obtain ⟨hmem, -⟩ := filter_binds_sources hfilter
  refine ⟨_, hfilter, by decide, ?_, ?_, ?_⟩
  · exact (hmem _ _).mpr (.inl ⟨2, .list [.int 2], rfl, by decide, rfl⟩)
  · exact (hmem _ _).mpr (.inr (.inl ⟨"role", by decide, by decide, rfl⟩))
  · exact (hmem _ _).mpr (.inr (.inr ⟨"note", by decide, by decide, rfl⟩))

end Sql

end AccessRules
