import AccessRules.Sql.Filter

/-!
# What compiling a rule does

One equation for each form of a rule says how it is put together from its parts, which are compiled
one behind the other (`Compiled.andThen`), and one statement when it compiles, to which condition, and
with what bound. Bindings only ever grow, and in four ways:

> `compile_grows`: between the bindings before and after a rule lie binds of the next constant, of
> an allowed field of the caller to what is known about it, and of a field of the request body to
> null.
> `compile_plain`: the names of columns and parameters in a condition are plain.

What holds of the bindings of every filter follows by induction on that growth.
-/

namespace AccessRules.Sql

open Rule

variable {auth : Auth} {b b' : Bindings} {c : Condition}

/-! ## One equation for each form -/

/-- What is done with a part once it has been compiled. -/
def Compiled.andThen {α β : Type} (r : Compiled α) (next : α → Bindings → Compiled β) :
    Compiled β :=
  match r with
  | .error o => .error o
  | .ok (a, b) => next a b

@[simp] theorem Compiled.andThen_ok {α β : Type} (a : α) (b : Bindings)
    (next : α → Bindings → Compiled β) : Compiled.andThen (.ok (a, b)) next = next a b :=
  rfl

@[simp] theorem Compiled.andThen_error {α β : Type} (o : Obstacle)
    (next : α → Bindings → Compiled β) :
    Compiled.andThen (.error o : Compiled α) next = .error o :=
  rfl

/-- Two steps succeed together if the first one does and the second one does with what it leaves
bound. -/
theorem Compiled.andThen_eq_ok_iff {α β : Type} {r : Compiled α}
    {next : α → Bindings → Compiled β} {p : β × Bindings} :
    r.andThen next = .ok p ↔ ∃ a b, r = .ok (a, b) ∧ next a b = .ok p := by
  rcases r with o | ⟨a, b⟩
  · simp
  · constructor
    · intro h
      exact ⟨a, b, rfl, h⟩
    · intro h
      obtain ⟨_, _, heq, h⟩ := h
      cases heq
      exact h

/-- The operand of a lookup is compiled in front of the list. -/
theorem compile_member {left right : Expr} :
    compile auth b (.comparison .member left right) =
      (compile auth b left).andThen fun l b => compileMembership l b right := by
  rw [compile]
  rcases compile auth b left with o | ⟨l, b₁⟩ <;> rfl

/-- A comparison is compiled from left to right. -/
theorem compile_comparison {op : Comparison} {left right : Expr} (hop : op ≠ .member) :
    compile auth b (.comparison op left right) =
      (compile auth b left).andThen fun l b => (compile auth b right).andThen fun r b =>
        .ok (.comparison op l r, b) := by
  rw [compile]
  rcases compile auth b left with o | ⟨l, b₁⟩
  · rfl
  · simp only [if_neg hop, Compiled.andThen_ok]
    rcases compile auth b₁ right with o | ⟨r, b₂⟩ <;> rfl

theorem compile_connective {op : Connective} {left right : Expr} :
    compile auth b (.connective op left right) =
      (compile auth b left).andThen fun l b => (compile auth b right).andThen fun r b =>
        .ok (.connective op l r, b) := by
  rw [compile]
  rcases compile auth b left with o | ⟨l, b₁⟩
  · rfl
  · simp only [Compiled.andThen_ok]
    rcases compile auth b₁ right with o | ⟨r, b₂⟩ <;> rfl

theorem compile_not {operand : Expr} :
    compile auth b (.not operand) =
      (compile auth b operand).andThen fun c b => .ok (.not c, b) := by
  rw [compile]
  rcases compile auth b operand with o | ⟨c, b₁⟩ <;> rfl

/-- A call is resolved before its arguments are compiled, and they are compiled before the function
is asked for a condition. -/
theorem compile_call {name : String} {args : List Expr} :
    compile auth b (.call name args) =
      match Function.resolve name args.length with
      | .error fault => .error (.call fault)
      | .ok f =>
        if hasCondition f then
          (compileArgs auth b args).andThen fun cs b => compileCall auth f cs b
        else .error (.macroAtRunTime f) := by
  rw [compile]
  rcases Function.resolve name args.length with fault | f
  · rfl
  · cases hf : hasCondition f with
    | false => simp [hf]
    | true =>
      simp only [hf]
      rcases compileArgs auth b args with o | ⟨cs, b₁⟩ <;> rfl

theorem compileArgs_cons {arg : Expr} {args : List Expr} :
    compileArgs auth b (arg :: args) =
      (compile auth b arg).andThen fun c b => (compileArgs auth b args).andThen fun cs b =>
        .ok (c :: cs, b) := by
  rw [compileArgs]
  rcases compile auth b arg with o | ⟨c, b₁⟩
  · rfl
  · simp only [Compiled.andThen_ok]
    rcases compileArgs auth b₁ args with o | ⟨cs, b₂⟩ <;> rfl

/-! ## When each form compiles -/

/-- A field of the caller compiles if it is one of those that a rule may use. -/
theorem compileAuth_eq_ok_iff {field : String} :
    compileAuth auth field b = .ok (c, b') ↔
      Variable.isAuthField field = true ∧ c = .parameter (.auth field) ∧
        b' = b.bind (.auth field) (auth.get field) := by
  unfold compileAuth
  by_cases h : Variable.isAuthField field = true
  · simp [h, eq_comm]
  · simp [h]

/-- What a path becomes, by what it refers to. -/
theorem compilePath_eq_ok_iff {path : String} :
    compilePath auth path b = .ok (c, b') ↔
      (∃ field, Variable.ofPath path = .auth field ∧ Variable.isAuthField field = true ∧
        c = .parameter (.auth field) ∧ b' = b.bind (.auth field) (auth.get field)) ∨
      (∃ field, Variable.ofPath path = .data field ∧ isPlainName field = true ∧
        c = .parameter (.data field) ∧ b' = b.bind (.data field) .null) ∨
      (∃ name, Variable.ofPath path = .field name ∧ isPlainName name = true ∧
        c = .column name ∧ b' = b) := by
  unfold compilePath
  cases hpath : Variable.ofPath path with
  | auth field => simp [compileAuth_eq_ok_iff]
  | data field =>
    by_cases h : isPlainName field = true
    · simp [h, @eq_comm _ c, @eq_comm _ b']
    · simp [h]
  | field name =>
    by_cases h : isPlainName name = true
    · simp [h, @eq_comm _ c, @eq_comm _ b']
    · simp [h]

/-- A constant becomes the next parameter, unless it is a list. -/
theorem compile_literal_eq_ok_iff {value : Literal} :
    compile auth b (.literal value) = .ok (c, b') ↔
      (∀ items, value ≠ .list items) ∧ c = .parameter (.constant b.constants) ∧
        b' = b.bindConstant value.toValue := by
  cases value with
  | list items => simp [compile]
  | _ => simp [compile, eq_comm]

theorem compile_path_eq_ok_iff {name : String} :
    compile auth b (.path name) = .ok (c, b') ↔ compilePath auth name b = .ok (c, b') := by
  rw [compile_path]

/-- The right side of `in` is a list; an empty one leaves no trace in the text. -/
theorem compileMembership_eq_ok_iff {operand : Condition} {container : Expr} :
    compileMembership operand b container = .ok (c, b') ↔
      ∃ items, container = .literal (.list items) ∧
        ((items = [] ∧ c = .never ∧ b' = b) ∨
          (items ≠ [] ∧ c = .oneOf operand (compileItems b items).1 ∧
            b' = (compileItems b items).2)) := by
  unfold compileMembership
  split
  · simp [eq_comm]
  · simp [eq_comm]
  · next hempty hcons =>
    simp only [reduceCtorEq, false_iff, not_exists, not_and]
    intro items h
    cases items with
    | nil => exact absurd h hempty
    | cons item items => exact absurd h (hcons item items)

theorem compile_member_eq_ok_iff {left right : Expr} :
    compile auth b (.comparison .member left right) = .ok (c, b') ↔
      ∃ l b₁, compile auth b left = .ok (l, b₁) ∧ compileMembership l b₁ right = .ok (c, b') := by
  rw [compile_member, Compiled.andThen_eq_ok_iff]

theorem compile_comparison_eq_ok_iff {op : Comparison} {left right : Expr} (hop : op ≠ .member) :
    compile auth b (.comparison op left right) = .ok (c, b') ↔
      ∃ l b₁, compile auth b left = .ok (l, b₁) ∧
        ∃ r b₂, compile auth b₁ right = .ok (r, b₂) ∧ c = .comparison op l r ∧ b' = b₂ := by
  simp only [compile_comparison hop, Compiled.andThen_eq_ok_iff, Except.ok.injEq, Prod.mk.injEq,
    @eq_comm _ _ c, @eq_comm _ _ b']

theorem compile_connective_eq_ok_iff {op : Connective} {left right : Expr} :
    compile auth b (.connective op left right) = .ok (c, b') ↔
      ∃ l b₁, compile auth b left = .ok (l, b₁) ∧
        ∃ r b₂, compile auth b₁ right = .ok (r, b₂) ∧ c = .connective op l r ∧ b' = b₂ := by
  simp only [compile_connective, Compiled.andThen_eq_ok_iff, Except.ok.injEq, Prod.mk.injEq,
    @eq_comm _ _ c, @eq_comm _ _ b']

theorem compile_not_eq_ok_iff {operand : Expr} :
    compile auth b (.not operand) = .ok (c, b') ↔
      ∃ d b₁, compile auth b operand = .ok (d, b₁) ∧ c = .not d ∧ b' = b₁ := by
  simp only [compile_not, Compiled.andThen_eq_ok_iff, Except.ok.injEq, Prod.mk.injEq,
    @eq_comm _ _ c, @eq_comm _ _ b']

/-- A call compiles when it resolves, its function has a condition and its arguments compile. -/
theorem compile_call_eq_ok_iff {name : String} {args : List Expr} :
    compile auth b (.call name args) = .ok (c, b') ↔
      ∃ f, Function.resolve name args.length = .ok f ∧ hasCondition f = true ∧
        ∃ cs b₁, compileArgs auth b args = .ok (cs, b₁) ∧
          compileCall auth f cs b₁ = .ok (c, b') := by
  rw [compile_call]
  cases Function.resolve name args.length with
  | error fault => simp
  | ok f =>
    by_cases hf : hasCondition f = true
    · simp [hf, Compiled.andThen_eq_ok_iff]
    · simp [hf]

theorem compileArgs_cons_eq_ok_iff {arg : Expr} {args : List Expr} {cs : List Condition} :
    compileArgs auth b (arg :: args) = .ok (cs, b') ↔
      ∃ d b₁, compile auth b arg = .ok (d, b₁) ∧
        ∃ ds b₂, compileArgs auth b₁ args = .ok (ds, b₂) ∧ cs = d :: ds ∧ b' = b₂ := by
  simp only [compileArgs_cons, Compiled.andThen_eq_ok_iff, Except.ok.injEq, Prod.mk.injEq,
    @eq_comm _ _ cs, @eq_comm _ _ b']

/-- A call that becomes a condition matches a text, compares the role of the caller or compares the
owner of the record. -/
theorem compileCall_cases {f : Function} {args : List Condition}
    (h : compileCall auth f args b = .ok (c, b')) :
    ((f = .contains ∨ f = .startsWith ∨ f = .endsWith) ∧ ∃ pattern text part,
      args = [text, part] ∧ c = .like pattern text part ∧ b' = b) ∨
    (f = .hasRole ∧ ∃ role, args = [role] ∧
      c = .comparison .eq (.parameter (.auth "role")) role ∧
      b' = b.bind (.auth "role") (auth.get "role")) ∨
    ((f = .ownsRecord ∨ f = .isCreator) ∧ args = [] ∧
      c = .comparison .eq (.column ownerColumn) (.parameter (.auth "id")) ∧
      b' = b.bind (.auth "id") (auth.get "id")) := by
  -- The macros ask for fields of the caller that any rule may use.
  have hrole : Variable.isAuthField "role" = true := by decide
  have hid : Variable.isAuthField "id" = true := by decide
  unfold compileCall at h
  split at h
  · cases h
    exact .inl ⟨.inl rfl, _, _, _, rfl, rfl, rfl⟩
  · cases h
    exact .inl ⟨.inr (.inl rfl), _, _, _, rfl, rfl, rfl⟩
  · cases h
    exact .inl ⟨.inr (.inr rfl), _, _, _, rfl, rfl, rfl⟩
  · rw [compileAuth, if_pos hrole] at h
    cases h
    exact .inr (.inl ⟨rfl, _, rfl, rfl, rfl⟩)
  · rw [compileAuth, if_pos hid] at h
    cases h
    exact .inr (.inr ⟨.inl rfl, rfl, rfl, rfl⟩)
  · rw [compileAuth, if_pos hid] at h
    cases h
    exact .inr (.inr ⟨.inr rfl, rfl, rfl, rfl⟩)
  · cases h

/-- `Called auth b args c b'`: a call with the arguments becomes the condition. -/
inductive Called (auth : Auth) (b : Bindings) : List Condition → Condition → Bindings → Prop
  | like (pattern : Match) (text part : Condition) :
      Called auth b [text, part] (.like pattern text part) b
  | role (role : Condition) : Called auth b [role]
      (.comparison .eq (.parameter (.auth "role")) role)
      (b.bind (.auth "role") (auth.get "role"))
  | owner : Called auth b [] (.comparison .eq (.column ownerColumn) (.parameter (.auth "id")))
      (b.bind (.auth "id") (auth.get "id"))

/-- A call that compiles is one of the three kinds of calls with a condition. -/
theorem called_of_compileCall {f : Function} {args : List Condition}
    (h : compileCall auth f args b = .ok (c, b')) : Called auth b args c b' := by
  rcases compileCall_cases h with ⟨-, pattern, text, part, rfl, rfl, rfl⟩ |
    ⟨-, role, rfl, rfl, rfl⟩ | ⟨-, rfl, rfl, rfl⟩
  · exact .like pattern text part
  · exact .role role
  · exact .owner

/-- A call itself binds at most one field of the caller. -/
theorem bindings_of_compileCall {f : Function} {args : List Condition}
    (h : compileCall auth f args b = .ok (c, b')) :
    b' = b ∨ ∃ field, Variable.isAuthField field = true ∧
      b' = b.bind (.auth field) (auth.get field) := by
  cases called_of_compileCall h with
  | like pattern text part => exact Or.inl rfl
  | role role => exact Or.inr ⟨"role", by decide, rfl⟩
  | owner => exact Or.inr ⟨"id", by decide, rfl⟩

/-- The filter of a rule is the text of its condition with what is bound. -/
theorem exists_compile_of_ofExpr {e : Expr} {filter : Filter}
    (h : Filter.ofExpr auth e = .ok filter) :
    ∃ c b, compile auth .empty e = .ok (c, b) ∧ filter.sql = c.text ∧ filter.params = b.params := by
  unfold Filter.ofExpr at h
  cases hcompile : compile auth .empty e with
  | error o =>
    rw [hcompile] at h
    cases h
  | ok r =>
    obtain ⟨c, b⟩ := r
    rw [hcompile] at h
    cases h
    exact ⟨c, b, rfl, rfl, rfl⟩

/-! ## How bindings grow -/

/-- `Grows auth b b'`: `b'` comes from `b` by the binds that compiling can make. -/
inductive Grows (auth : Auth) (b : Bindings) : Bindings → Prop
  | refl : Grows auth b b
  | constant {b' : Bindings} (value : Value) :
      Grows auth b b' → Grows auth b (b'.bindConstant value)
  | auth {b' : Bindings} {field : String} : Variable.isAuthField field = true → Grows auth b b' →
      Grows auth b (b'.bind (.auth field) (auth.get field))
  | data {b' : Bindings} {field : String} : isPlainName field = true → Grows auth b b' →
      Grows auth b (b'.bind (.data field) .null)

namespace Grows

theorem trans {b₁ b₂ b₃ : Bindings} (h : Grows auth b₁ b₂) (h' : Grows auth b₂ b₃) :
    Grows auth b₁ b₃ := by
  induction h' with
  | refl => exact h
  | constant value _ ih => exact .constant value ih
  | auth hfield _ ih => exact .auth hfield ih
  | data hfield _ ih => exact .data hfield ih

/-- What is bound stays bound, behind what is bound later. -/
theorem suffix (h : Grows auth b b') : b.bound <:+ b'.bound := by
  induction h with
  | refl => exact List.suffix_rfl
  | constant value _ ih => exact ih.trans (List.suffix_cons _ _)
  | auth _ _ ih => exact ih.trans (List.suffix_cons _ _)
  | data _ _ ih => exact ih.trans (List.suffix_cons _ _)

end Grows

/-- Compiling a path binds at most the field that it leads to. -/
theorem compilePath_grows {path : String} (h : compilePath auth path b = .ok (c, b')) :
    Grows auth b b' := by
  rcases compilePath_eq_ok_iff.mp h with ⟨_, -, hfield, -, rfl⟩ | ⟨_, -, hfield, -, rfl⟩ |
    ⟨_, -, -, -, rfl⟩
  · exact .auth hfield .refl
  · exact .data hfield .refl
  · exact .refl

/-- Compiling the items of a list binds a constant for each. -/
theorem compileItems_grows : (b : Bindings) → (items : List Literal) →
    Grows auth b (compileItems b items).2
  | b, [] => by
    rw [compileItems]
    exact .refl
  | b, item :: items => by
    rw [compileItems]
    exact (Grows.constant item.toValue .refl).trans (compileItems_grows _ items)

theorem compileMembership_grows {operand : Condition} {container : Expr}
    (h : compileMembership operand b container = .ok (c, b')) : Grows auth b b' := by
  obtain ⟨items, -, ⟨-, -, rfl⟩ | ⟨-, -, rfl⟩⟩ := compileMembership_eq_ok_iff.mp h
  · exact .refl
  · exact compileItems_grows b items

mutual

/-- **Compiling a rule only adds bindings**, one for each constant, field of the caller and field
of the request body that comes up. -/
theorem compile_grows : (e : Expr) → {b b' : Bindings} → {c : Condition} →
    compile auth b e = .ok (c, b') → Grows auth b b'
  | .literal value, b, b', c, h => by
    obtain ⟨-, -, rfl⟩ := compile_literal_eq_ok_iff.mp h
    exact .constant _ .refl
  | .path name, b, b', c, h => compilePath_grows (compile_path_eq_ok_iff.mp h)
  | .comparison op left right, b, b', c, h => by
    by_cases hop : op = .member
    · rw [hop] at h
      obtain ⟨l, b₁, hleft, hright⟩ := compile_member_eq_ok_iff.mp h
      exact (compile_grows left hleft).trans (compileMembership_grows hright)
    · obtain ⟨l, b₁, hleft, r, b₂, hright, -, rfl⟩ := (compile_comparison_eq_ok_iff hop).mp h
      exact (compile_grows left hleft).trans (compile_grows right hright)
  | .connective op left right, b, b', c, h => by
    obtain ⟨l, b₁, hleft, r, b₂, hright, -, rfl⟩ := compile_connective_eq_ok_iff.mp h
    exact (compile_grows left hleft).trans (compile_grows right hright)
  | .not operand, b, b', c, h => by
    obtain ⟨d, b₁, hoperand, -, rfl⟩ := compile_not_eq_ok_iff.mp h
    exact compile_grows operand hoperand
  | .call name args, b, b', c, h => by
    obtain ⟨f, -, -, cs, b₁, hargs, hcall⟩ := compile_call_eq_ok_iff.mp h
    rcases bindings_of_compileCall hcall with rfl | ⟨field, hfield, rfl⟩
    · exact compileArgs_grows args hargs
    · exact .auth hfield (compileArgs_grows args hargs)

theorem compileArgs_grows : (args : List Expr) → {b b' : Bindings} → {cs : List Condition} →
    compileArgs auth b args = .ok (cs, b') → Grows auth b b'
  | [], b, b', cs, h => by
    rw [compileArgs] at h
    cases h
    exact .refl
  | arg :: args, b, b', cs, h => by
    obtain ⟨d, b₁, harg, ds, b₂, hargs, -, rfl⟩ := compileArgs_cons_eq_ok_iff.mp h
    exact (compile_grows arg harg).trans (compileArgs_grows args hargs)

end

/-! ## Which names come through -/

/-- The name of a field is plain; a constant has a number for a name. -/
def Parameter.Plain : Parameter → Prop
  | .constant _ => True
  | .auth field => isPlainName field = true
  | .data field => isPlainName field = true

/-- Every name in a condition is plain. -/
def Condition.Plain : Condition → Prop
  | .column name => isPlainName name = true
  | .parameter p => p.Plain
  | .not c => c.Plain
  | .connective _ left right => left.Plain ∧ right.Plain
  | .comparison _ left right => left.Plain ∧ right.Plain
  | .oneOf c _ => c.Plain
  | .never => True
  | .like _ text part => text.Plain ∧ part.Plain

/-- The fields of the caller that a rule may use have plain names. -/
theorem plain_auth {field : String} (h : Variable.isAuthField field = true) :
    (Parameter.auth field).Plain := by
  have hall : ∀ f ∈ Variable.authFields, isPlainName f = true := by decide
  exact hall field (List.contains_iff_mem.mp h)

/-- A path compiles to plain names only, since others are refused. -/
theorem compilePath_plain {path : String} (h : compilePath auth path b = .ok (c, b')) :
    c.Plain := by
  rcases compilePath_eq_ok_iff.mp h with ⟨field, -, hfield, rfl, -⟩ | ⟨_, -, hfield, rfl, -⟩ |
    ⟨_, -, hname, rfl, -⟩
  · exact plain_auth hfield
  · exact hfield
  · exact hname

/-- A call brings no names of its own but plain ones. -/
theorem compileCall_plain {f : Function} {args : List Condition}
    (h : compileCall auth f args b = .ok (c, b')) (hargs : ∀ d ∈ args, d.Plain) : c.Plain := by
  cases called_of_compileCall h with
  | like pattern text part => exact ⟨hargs text (by simp), hargs part (by simp)⟩
  | role role => exact ⟨plain_auth (by decide), hargs role (by simp)⟩
  | owner =>
    have howner : isPlainName ownerColumn = true := by decide
    exact ⟨howner, plain_auth (by decide)⟩

mutual

/-- **Every name that compiling puts in a condition is plain.** -/
theorem compile_plain : (e : Expr) → {b b' : Bindings} → {c : Condition} →
    compile auth b e = .ok (c, b') → c.Plain
  | .literal value, b, b', c, h => by
    obtain ⟨-, rfl, -⟩ := compile_literal_eq_ok_iff.mp h
    trivial
  | .path name, b, b', c, h => compilePath_plain (compile_path_eq_ok_iff.mp h)
  | .comparison op left right, b, b', c, h => by
    by_cases hop : op = .member
    · rw [hop] at h
      obtain ⟨l, b₁, hleft, hright⟩ := compile_member_eq_ok_iff.mp h
      obtain ⟨items, -, ⟨-, rfl, -⟩ | ⟨-, rfl, -⟩⟩ := compileMembership_eq_ok_iff.mp hright
      · trivial
      · show l.Plain
        exact compile_plain left hleft
    · obtain ⟨l, b₁, hleft, r, b₂, hright, rfl, -⟩ := (compile_comparison_eq_ok_iff hop).mp h
      exact ⟨compile_plain left hleft, compile_plain right hright⟩
  | .connective op left right, b, b', c, h => by
    obtain ⟨l, b₁, hleft, r, b₂, hright, rfl, -⟩ := compile_connective_eq_ok_iff.mp h
    exact ⟨compile_plain left hleft, compile_plain right hright⟩
  | .not operand, b, b', c, h => by
    obtain ⟨d, b₁, hoperand, rfl, -⟩ := compile_not_eq_ok_iff.mp h
    show d.Plain
    exact compile_plain operand hoperand
  | .call name args, b, b', c, h => by
    obtain ⟨f, -, -, cs, b₁, hargs, hcall⟩ := compile_call_eq_ok_iff.mp h
    exact compileCall_plain hcall (compileArgs_plain args hargs)

theorem compileArgs_plain : (args : List Expr) → {b b' : Bindings} → {cs : List Condition} →
    compileArgs auth b args = .ok (cs, b') → ∀ d ∈ cs, d.Plain
  | [], b, b', cs, h => by
    rw [compileArgs] at h
    cases h
    intro d hd
    cases hd
  | arg :: args, b, b', cs, h => by
    obtain ⟨d, b₁, harg, ds, b₂, hargs, rfl, -⟩ := compileArgs_cons_eq_ok_iff.mp h
    intro d' hd'
    rcases List.mem_cons.mp hd' with rfl | hd'
    · exact compile_plain arg harg
    · exact compileArgs_plain args hargs d' hd'

end

end AccessRules.Sql
