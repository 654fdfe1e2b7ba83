import AccessRules.Proofs.Rule.Calls
import AccessRules.Proofs.Sql.Lexis
import AccessRules.Proofs.Sql.Parameters

/-!
# The placeholders of a filter and its parameters

A filter is a text with placeholders and a dictionary of parameters, and whoever runs the query puts
the one into the other. Every placeholder has a parameter. The other way round it is not always so:
the operand of `in` is compiled before the list is looked at, and nothing of it is written when the
list is empty, so what it binds is left over.

> `placeholders_eq_keys_iff`: each placeholder of a filter is bound; each parameter stands in the
> text exactly when the rule leaves nothing over.

`Expr.shown` and `Expr.dropped` say for a rule alone what stands in the text of its filter and what
is bound without standing there. Behind the theorem is one account, kept by every step of compiling:
what is bound is, piece by piece, what the condition shows and what was dropped on the way.
-/

namespace AccessRules

open Rule

namespace Sql

/-! ## The placeholders of a text -/

/-- The name that a token is a placeholder for, if it is one. -/
def Token.placeholders : Token → List String
  | .placeholder name => [name]
  | _ => []

/-- The names behind the colons of a text, if it is a row of tokens. -/
def placeholders (text : String) : Option (List String) :=
  (lex text).map (List.flatMap Token.placeholders)

/-- The parameters that stand in a condition. -/
def Condition.parameters : Condition → List Parameter
  | .column _ => []
  | .parameter p => [p]
  | .not c => c.parameters
  | .connective _ left right => left.parameters ++ right.parameters
  | .comparison _ left right => left.parameters ++ right.parameters
  | .oneOf c numbers => c.parameters ++ numbers.map .constant
  | .never => []
  | .like _ text part => text.parameters ++ part.parameters

/-- The placeholders among the tokens of a condition are the names of its parameters. -/
theorem placeholders_tokens : (c : Condition) →
    c.tokens.flatMap Token.placeholders = c.parameters.map Parameter.name
  | .column _ => rfl
  | .parameter _ => rfl
  | .never => rfl
  | .not c => by
    have hc := placeholders_tokens c
    simp [Condition.tokens, Condition.parameters, Token.placeholders, hc]
  | .connective op left right => by
    have hleft := placeholders_tokens left
    have hright := placeholders_tokens right
    simp [Condition.tokens, Condition.parameters, Token.placeholders, hleft, hright]
  | .comparison op left right => by
    have hleft := placeholders_tokens left
    have hright := placeholders_tokens right
    have hsign : (signToken op).placeholders = [] := by
      cases op <;> rfl
    simp [Condition.tokens, Condition.parameters, hsign, hleft, hright]
  | .oneOf c numbers => by
    have hc := placeholders_tokens c
    have hitems := flatMap_itemTokens (f := Token.placeholders) rfl numbers
    have hnames : (numbers.flatMap fun n => [(Parameter.constant n).name]) =
        numbers.map fun n => (Parameter.constant n).name := List.map_eq_flatMap.symm
    simp [Condition.tokens, Condition.parameters, Token.placeholders, hc, hitems, hnames]
  | .like pattern text part => by
    have htext := placeholders_tokens text
    have hpart := placeholders_tokens part
    have hpattern := flatMap_patternTokens (f := Token.placeholders) rfl rfl pattern part.tokens
    simp [Condition.tokens, Condition.parameters, Token.placeholders, hpattern, htext, hpart]

/-- The placeholders of the text of a plain condition are the names of its parameters. -/
theorem placeholders_text {c : Condition} (h : c.Plain) :
    placeholders c.text = some (c.parameters.map Parameter.name) := by
  rw [placeholders, lex_text h, Option.map_some, placeholders_tokens]

end Sql

/-! ## What a rule shows and what it drops -/

/-- Where the value of a parameter comes from. -/
inductive Rule.Origin
  | constant
  /-- A field of the caller. -/
  | caller (field : String)
  /-- A field of the request body. -/
  | body (field : String)
deriving DecidableEq, Repr

namespace Rule.Expr

/-- A constant; a list is none by itself. -/
def literalOrigins : Literal → List Origin
  | .list _ => []
  | _ => [.constant]

/-- Where the value of what a path refers to comes from, unless from a column. -/
def pathOrigins (path : String) : List Origin :=
  match Variable.ofPath path with
  | .auth field => [.caller field]
  | .data field => [.body field]
  | .field _ => []

/-- What a macro looks up by itself. -/
def callOrigins (name : String) : List Origin :=
  match Function.ofName? name with
  | some .hasRole => [.caller "role"]
  | some .ownsRecord | some .isCreator => [.caller "id"]
  | _ => []

/-- The constants of a list. -/
def itemOrigins : Expr → List Origin
  | .literal (.list items) => items.map fun _ => .constant
  | _ => []

mutual

/-- What stands as a parameter in the text of the filter of a rule. -/
def shown : Expr → List Origin
  | .literal value => literalOrigins value
  | .path name => pathOrigins name
  | .comparison op left right =>
    if op = .member then if itemOrigins right = [] then [] else shown left ++ itemOrigins right
    else shown left ++ shown right
  | .connective _ left right => shown left ++ shown right
  | .not operand => shown operand
  | .call name args => callOrigins name ++ argShown args

/-- What some arguments show. -/
def argShown : List Expr → List Origin
  | [] => []
  | arg :: args => shown arg ++ argShown args

end

mutual

/-- What a filter binds without its standing in the text: all that is looked up in an empty list. -/
def dropped : Expr → List Origin
  | .literal _ => []
  | .path _ => []
  | .comparison op left right =>
    if op = .member then
      if itemOrigins right = [] then shown left ++ dropped left else dropped left
    else dropped left ++ dropped right
  | .connective _ left right => dropped left ++ dropped right
  | .not operand => dropped operand
  | .call _ args => argDropped args

/-- What some arguments drop. -/
def argDropped : List Expr → List Origin
  | [] => []
  | arg :: args => dropped arg ++ argDropped args

end

/-- Nothing that the rule drops is left over: it drops no constant, and each field of the caller or
of the request body that it drops stands elsewhere in the text. -/
def LeavesNothing (e : Expr) : Prop :=
  ∀ origin ∈ e.dropped, origin ≠ .constant ∧ origin ∈ e.shown

end Rule.Expr

namespace Sql

variable {auth : Auth} {b b' : Bindings} {c : Condition}

/-- Where the value of a parameter comes from. -/
def Parameter.origin : Parameter → Origin
  | .constant _ => .constant
  | .auth field => .caller field
  | .data field => .body field

/-- A parameter that is no constant is known by where its value comes from. -/
theorem Parameter.eq_of_origin_eq {p q : Parameter} (h : p.origin = q.origin)
    (hp : p.origin ≠ .constant) : p = q := by
  cases p <;> cases q <;> simp_all [origin]

/-! ## The account of what is bound -/

/-- The parameters that are bound, as often as they came up. -/
def Bindings.parameters (b : Bindings) : List Parameter :=
  b.bound.map Prod.fst

/-- Between `b` and `b'` the parameters `ps` were bound, which the condition shows, and some more that
it dropped; both come from where they should. -/
def Accounts (b b' : Bindings) (ps : List Parameter) (shown dropped : List Origin) : Prop :=
  ∃ hidden : List Parameter, b'.parameters.Perm (ps ++ (hidden ++ b.parameters)) ∧
    ps.map Parameter.origin = shown ∧ hidden.map Parameter.origin = dropped

theorem accounts_refl (b : Bindings) : Accounts b b [] [] [] :=
  ⟨[], .refl _, rfl, rfl⟩

/-- Two accounts, one after the other, make one. -/
theorem Accounts.append {b b₁ b₂ : Bindings} {ps ps' : List Parameter}
    {shown shown' dropped dropped' : List Origin} (h : Accounts b b₁ ps shown dropped)
    (h' : Accounts b₁ b₂ ps' shown' dropped') :
    Accounts b b₂ (ps ++ ps') (shown ++ shown') (dropped ++ dropped') := by
  obtain ⟨hidden, hbound, rfl, rfl⟩ := h
  obtain ⟨hidden', hbound', rfl, rfl⟩ := h'
  refine ⟨hidden ++ hidden', ?_, List.map_append, List.map_append⟩
  rw [List.perm_iff_count] at hbound hbound' ⊢
  intro p
  have hp := hbound p
  have hp' := hbound' p
  simp only [List.count_append] at hp hp' ⊢
  omega

/-- The items of a list bind one constant each, under the numbers that stand for them. -/
theorem parameters_compileItems : (b : Bindings) → (items : List Literal) →
    Accounts b (compileItems b items).2 ((compileItems b items).1.map .constant)
      (items.map fun _ => .constant) []
  | b, [] => accounts_refl b
  | b, item :: items => by
    have hfirst : Accounts b (b.bindConstant item.toValue) [.constant b.constants] [.constant] [] :=
      ⟨[], .refl _, rfl, rfl⟩
    exact hfirst.append (parameters_compileItems (b.bindConstant item.toValue) items)

/-- A call shows what its arguments show, and binds what its macro looks up besides. -/
theorem parameters_compileCall {name : String} {f : Function} {args : List Condition}
    (hname : Function.ofName? name = some f) (h : compileCall auth f args b = .ok (c, b')) :
    ∃ own, c.parameters = own ++ args.flatMap Condition.parameters ∧
      b'.parameters = own ++ b.parameters ∧ own.map Parameter.origin = Expr.callOrigins name := by
  unfold Expr.callOrigins
  rw [hname]
  rcases compileCall_cases h with ⟨hf, pattern, text, part, rfl, rfl, rfl⟩ |
    ⟨rfl, role, rfl, rfl, rfl⟩ | ⟨hf, rfl, rfl, rfl⟩
  · refine ⟨[], by simp [Condition.parameters], rfl, ?_⟩
    rcases hf with rfl | rfl | rfl <;> rfl
  · exact ⟨[.auth "role"], by simp [Condition.parameters], rfl, rfl⟩
  · refine ⟨[.auth "id"], by simp [Condition.parameters], rfl, ?_⟩
    rcases hf with rfl | rfl <;> rfl

mutual

/-- **What compiling binds is what the condition shows and what was dropped.** -/
theorem parameters_of_compile : (e : Expr) → {b b' : Bindings} → {c : Condition} →
    compile auth b e = .ok (c, b') → Accounts b b' c.parameters e.shown e.dropped
  | .literal value, b, b', c, h => by
    obtain ⟨hscalar, rfl, rfl⟩ := compile_literal_eq_ok_iff.mp h
    refine ⟨[], .refl _, ?_, ?_⟩
    · rw [Expr.shown]
      cases value with
      | list items => exact absurd rfl (hscalar items)
      | _ => rfl
    · rw [Expr.dropped, List.map_nil]
  | .path name, b, b', c, h => by
    rw [Expr.shown, Expr.dropped, Expr.pathOrigins]
    rcases compilePath_eq_ok_iff.mp (compile_path_eq_ok_iff.mp h) with
      ⟨field, hof, -, rfl, rfl⟩ | ⟨field, hof, -, rfl, rfl⟩ | ⟨field, hof, -, rfl, rfl⟩
    · rw [hof]
      exact ⟨[], .refl _, rfl, rfl⟩
    · rw [hof]
      exact ⟨[], .refl _, rfl, rfl⟩
    · rw [hof]
      exact ⟨[], .refl _, rfl, rfl⟩
  | .comparison op left right, b, b', c, h => by
    rw [Expr.shown, Expr.dropped]
    by_cases hop : op = .member
    · rw [hop] at h
      obtain ⟨l, b₁, hleft, hmember⟩ := compile_member_eq_ok_iff.mp h
      have haccount := parameters_of_compile left hleft
      rw [if_pos hop, if_pos hop]
      obtain ⟨items, rfl, ⟨rfl, rfl, rfl⟩ | ⟨hne, rfl, rfl⟩⟩ :=
        compileMembership_eq_ok_iff.mp hmember
      · -- What the operand shows is dropped along with what it dropped itself.
        obtain ⟨hidden, hbound, hshown, hdropped⟩ := haccount
        refine ⟨l.parameters ++ hidden, ?_, rfl, ?_⟩
        · rw [List.append_assoc]
          exact hbound
        · rw [List.map_append, hshown, hdropped]
          rfl
      · -- A list with items is looked into, so nothing of the operand is dropped here.
        have hitems : Expr.itemOrigins (.literal (.list items)) ≠ [] := by
          intro hnil
          exact hne (List.map_eq_nil_iff.mp hnil)
        have hall := haccount.append (parameters_compileItems b₁ items)
        rw [List.append_nil] at hall
        rw [if_neg hitems, if_neg hitems]
        exact hall
    · obtain ⟨l, b₁, hleft, r, b₂, hright, rfl, rfl⟩ := (compile_comparison_eq_ok_iff hop).mp h
      rw [if_neg hop, if_neg hop]
      exact (parameters_of_compile left hleft).append (parameters_of_compile right hright)
  | .connective op left right, b, b', c, h => by
    obtain ⟨l, b₁, hleft, r, b₂, hright, rfl, rfl⟩ := compile_connective_eq_ok_iff.mp h
    rw [Expr.shown, Expr.dropped]
    exact (parameters_of_compile left hleft).append (parameters_of_compile right hright)
  | .not operand, b, b', c, h => by
    obtain ⟨d, b₁, hoperand, rfl, rfl⟩ := compile_not_eq_ok_iff.mp h
    have haccount := parameters_of_compile operand hoperand
    rw [Expr.shown, Expr.dropped]
    exact haccount
  | .call name args, b, b', c, h => by
    obtain ⟨f, hresolve, -, cs, b₁, hargs, hcall⟩ := compile_call_eq_ok_iff.mp h
    obtain ⟨hname, -⟩ := Function.resolve_eq_ok_iff.mp hresolve
    obtain ⟨hidden, hbound, hshown, hdropped⟩ := parameters_of_compileArgs args hargs
    obtain ⟨own, hstands, hown, horigins⟩ := parameters_compileCall hname hcall
    rw [Expr.shown, Expr.dropped]
    refine ⟨hidden, ?_, ?_, hdropped⟩
    · rw [hstands, hown, List.append_assoc]
      exact hbound.append_left own
    · rw [hstands, List.map_append, horigins, hshown]

theorem parameters_of_compileArgs : (args : List Expr) → {b b' : Bindings} →
    {cs : List Condition} → compileArgs auth b args = .ok (cs, b') →
      Accounts b b' (cs.flatMap Condition.parameters) (Expr.argShown args) (Expr.argDropped args)
  | [], b, b', cs, h => by
    rw [compileArgs] at h
    cases h
    rw [Expr.argShown, Expr.argDropped]
    exact accounts_refl b
  | arg :: args, b, b', cs, h => by
    obtain ⟨d, b₁, harg, ds, b₂, hargs, rfl, rfl⟩ := compileArgs_cons_eq_ok_iff.mp h
    rw [Expr.argShown, Expr.argDropped, List.flatMap_cons]
    exact (parameters_of_compile arg harg).append (parameters_of_compileArgs args hargs)

end

/-- Each constant is bound once, under a number of its own. -/
theorem Grows.count_constant (h : Grows auth .empty b) (n : Nat) :
    b.parameters.count (.constant n) = if n < b.constants then 1 else 0 := by
  induction h with
  | refl => rfl
  | @constant b value _ ih =>
    show List.count _ (.constant b.constants :: b.parameters) = if n < b.constants + 1 then 1 else 0
    rw [List.count_cons, ih]
    grind
  | @auth b field _ _ ih =>
    show List.count _ (.auth field :: b.parameters) = _
    rw [List.count_cons_of_ne (by simp), ih]
    rfl
  | @data b field _ _ ih =>
    show List.count _ (.data field :: b.parameters) = _
    rw [List.count_cons_of_ne (by simp), ih]
    rfl

/-! ## Placeholders and parameters -/

/-- The keys of a dictionary are what it has a value for. -/
theorem mem_keys_iff {α : Type} {d : Dict α} {key : String} :
    key ∈ d.keys ↔ ∃ v, d.find? key = some v := by
  induction d with
  | nil => simp [Dict.keys, Dict.find?]
  | cons e rest ih =>
    obtain ⟨k, v⟩ := e
    rw [Dict.keys, List.map_cons, List.mem_cons, Dict.find?]
    by_cases hkey : key = k
    · simp [hkey]
    · rw [if_neg hkey, ← ih, Dict.keys]
      simp [hkey]

/-- The keys of the parameters are the names of what is bound. -/
theorem mem_keys_params {name : String} :
    name ∈ b.params.keys ↔ ∃ p ∈ b.parameters, p.name = name := by
  rw [mem_keys_iff]
  simp only [Bindings.find?_params, Option.map_eq_some_iff, Bindings.parameters, List.mem_map]
  constructor
  · intro h
    obtain ⟨_, x, hfind, -⟩ := h
    have hfound := List.find?_some hfind
    have hname : x.1.name = name := of_decide_eq_true hfound
    exact ⟨x.1, ⟨x, List.mem_of_find?_eq_some hfind, rfl⟩, hname⟩
  · intro h
    obtain ⟨_, ⟨x, hx, rfl⟩, hname⟩ := h
    cases hfind : b.bound.find? fun y => y.1.name = name with
    | none => exact absurd (decide_eq_true hname) (List.find?_eq_none.mp hfind x hx)
    | some y => exact ⟨y.2, y, rfl, rfl⟩

/-- What was dropped stands in the condition too when nothing is left over. A dropped constant has a
number of its own, which the condition does not show. -/
theorem dropped_subset_iff {hidden : List Parameter} {e : Expr}
    (hgrows : Grows auth .empty b) (hbound : b.parameters.Perm (c.parameters ++ hidden))
    (hshown : c.parameters.map Parameter.origin = e.shown)
    (hdropped : hidden.map Parameter.origin = e.dropped) :
    hidden ⊆ c.parameters ↔ e.LeavesNothing := by
  unfold Expr.LeavesNothing
  rw [← hshown, ← hdropped]
  simp only [List.forall_mem_map]
  constructor
  · intro hsubset p hp
    refine ⟨?_, List.mem_map_of_mem (hsubset hp)⟩
    intro hconstant
    cases p with
    | constant n =>
      -- Every number is given once, so it cannot stand in the text and be dropped as well.
      have hcount := hbound.count_eq (.constant n)
      rw [hgrows.count_constant, List.count_append] at hcount
      have htwice := List.count_pos_iff.mpr hp
      have honce := List.count_pos_iff.mpr (hsubset hp)
      grind
    | auth field => cases hconstant
    | data field => cases hconstant
  · intro hleft p hp
    obtain ⟨hfield, hmem⟩ := hleft p hp
    obtain ⟨q, hq, horigin⟩ := List.mem_map.mp hmem
    rw [Parameter.eq_of_origin_eq horigin.symm hfield]
    exact hq

/-- **Placeholders and parameters match exactly when the rule leaves nothing over.** The text of
every filter is a row of tokens, and each placeholder in it is bound. Each parameter is the name of a
placeholder if and only if no constant, and no field of the caller or of the request body that does
not stand elsewhere, is looked up in an empty list. -/
theorem placeholders_eq_keys_iff {e : Expr} {filter : Filter}
    (h : Filter.ofExpr auth e = .ok filter) :
    ∃ names, placeholders filter.sql = some names ∧
      (∀ name ∈ names, name ∈ filter.params.keys) ∧
      ((∀ name ∈ filter.params.keys, name ∈ names) ↔ e.LeavesNothing) := by
  obtain ⟨c, b, hcompile, hsql, hparams⟩ := exists_compile_of_ofExpr h
  obtain ⟨hidden, hbound, hshown, hdropped⟩ := parameters_of_compile e hcompile
  have hempty : Bindings.empty.parameters = [] := rfl
  rw [hempty, List.append_nil] at hbound
  refine ⟨c.parameters.map Parameter.name, ?_, ?_, ?_⟩
  · rw [hsql, placeholders_text (compile_plain e hcompile)]
  · intro name hname
    obtain ⟨p, hp, rfl⟩ := List.mem_map.mp hname
    rw [hparams, mem_keys_params]
    exact ⟨p, hbound.symm.subset (List.mem_append_left _ hp), rfl⟩
  · rw [← dropped_subset_iff (compile_grows e hcompile) hbound hshown hdropped]
    constructor
    · intro hkeys p hp
      -- What was dropped is bound all the same, so its name has to be in the text.
      have hname : p.name ∈ filter.params.keys := by
        rw [hparams, mem_keys_params]
        exact ⟨p, hbound.symm.subset (List.mem_append_right _ hp), rfl⟩
      obtain ⟨q, hq, heq⟩ := List.mem_map.mp (hkeys _ hname)
      rw [← Parameter.name_injective heq]
      exact hq
    · intro hsubset name hname
      rw [hparams, mem_keys_params] at hname
      obtain ⟨p, hp, rfl⟩ := hname
      rcases List.mem_append.mp (hbound.subset hp) with hstands | hhidden
      · exact List.mem_map_of_mem hstands
      · exact List.mem_map_of_mem (hsubset hhidden)

/-- In the rule `@request.auth.id in [] or owner == @request.auth.id` the field that is looked up in
the empty list stands elsewhere, and nothing is left over. -/
theorem placeholders_eq_keys_owner :
    let e : Expr := .connective .or
      (.comparison .member (.path "@request.auth.id") (.literal (.list [])))
      (.comparison .eq (.path "owner") (.path "@request.auth.id"))
    let filter : Filter := ⟨"(1=0 OR owner = :auth_id)", [("auth_id", .string "")]⟩
    Filter.ofExpr .empty e = .ok filter ∧ e.dropped = [.caller "id"] ∧
      ∃ names, placeholders filter.sql = some names ∧
        ∀ name, name ∈ names ↔ name ∈ filter.params.keys := by
  intro e filter
  have hfilter : Filter.ofExpr .empty e = .ok filter := rfl
  have hdropped : e.dropped = [.caller "id"] := rfl
  have hshown : e.shown = [.caller "id"] := rfl
  have hleft : e.LeavesNothing := by
    unfold Expr.LeavesNothing
    rw [hdropped, hshown, List.forall_mem_singleton]
    exact ⟨nofun, List.mem_singleton_self _⟩
  obtain ⟨names, hnames, hbound, hiff⟩ := placeholders_eq_keys_iff hfilter
  exact ⟨hfilter, hdropped, names, hnames, fun name => ⟨hbound name, hiff.mpr hleft name⟩⟩

/-- The rule `5 in []` binds its constant, but its text has no placeholder. -/
theorem constant_bound_without_placeholder :
    let e : Expr := .comparison .member (.literal (.int 5)) (.literal (.list []))
    let filter : Filter := ⟨"1=0", [("param_0", .int 5)]⟩
    parse "5 in []" = .ok e ∧ Filter.ofExpr .empty e = .ok filter ∧
      placeholders filter.sql = some [] ∧ filter.params.keys = ["param_0"] := by
  intro e filter
  have hnames : placeholders filter.sql = some [] := by decide +kernel
  refine ⟨?_, rfl, hnames, rfl⟩
  with_unfolding_all rfl

end Sql

end AccessRules
