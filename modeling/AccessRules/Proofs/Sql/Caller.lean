import AccessRules.Proofs.Sql.Reading

/-!
# The caller in a filter and in the evaluator

`@owns_record()`, `@is_creator()` and `@has_role(…)` compare one field of the caller with one other
value. Both ways to apply a rule come down to the same equality of SQL, in which nothing equals null:

> `evaluate_of_asks`: the evaluator compares the field of the caller, null if it is missing.
> `exists_filter_of_asks`: the filter compares the field as it is bound, the empty text if it is missing.

So they agree except in one case, in which the filter is the more generous of the two:

> `selects_eq_answer_iff`: filter and evaluator disagree exactly when the caller lacks the field and the
> other value is the empty text.
-/

namespace AccessRules

namespace Value

/-- Equality as a database decides it: nothing equals null. -/
def equals (left right : Value) : Bool :=
  !left.isNull && !right.isNull && left.same right

/-- A database compares in both directions alike. -/
theorem equals_comm (left right : Value) : left.equals right = right.equals left := by
  rw [equals, equals, same_comm, Bool.and_comm (!left.isNull)]

/-- Only null is the same as null. -/
theorem same_null (v : Value) : v.same .null = v.isNull := by
  cases v <;> rfl

/-- Only the empty text is the same as the empty text; a missing value is not. -/
theorem same_emptyText_iff {v : Value} : (Value.string "").same v = true ↔ v = .string "" := by
  cases v with
  | string s =>
    show ("" == s) = true ↔ _
    rw [beq_iff_eq, Value.string.injEq, eq_comm]
  | _ => simp [same]

/-- A value that is not null does not have to be told from null to be compared. -/
theorem equals_eq (left right : Value) : left.equals right = (!left.isNull && left.same right) := by
  unfold equals
  cases hleft : left.isNull with
  | true => rfl
  | false =>
    cases hright : right.isNull with
    | false => rfl
    | true =>
      have hnull : right = .null := by
        cases right <;> first | rfl | cases hright
      rw [hnull, same_null, hleft]
      rfl

end Value

namespace Rule.Context

/-- A path of two parts leads to a member of a top-level value. -/
theorem resolve_member {context : Context} {path head name : String} {value : Value}
    (hpath : (segments path.toList).map String.ofList = [head, name])
    (hvalue : context.get? head = some value) : context.resolve path = value.member name := by
  rw [resolve_of_names hpath, hvalue, Option.getD_some, follow_cons]
  rfl

end Rule.Context

namespace Sql

open Rule

/-- `Asks record e field other`: the rule asks whether the field of the caller equals the other
value, in the case of the record. -/
inductive Asks (record : Value) : Expr → String → Value → Prop
  | ownsRecord : Asks record (.call "@owns_record" []) "id" (record.member ownerColumn)
  | isCreator : Asks record (.call "@is_creator" []) "id" (record.member ownerColumn)
  | hasRole {role : Literal} : (∀ items, role ≠ .list items) →
      Asks record (.call "@has_role" [.literal role]) "role" role.toValue

variable {user : Dict Value} {record other : Value} {context : Context} {hour : Hour} {e : Expr}
  {field : String}

/-! ## The evaluator -/

/-- The evaluator takes a field that is missing for null. -/
theorem evaluate_of_asks (h : Asks record e field other)
    (huser : context.get? "user" = some (.map user))
    (hrecord : context.get? "record" = some record) :
    e.evaluate context hour =
      .ok (.bool (((Dict.find? user field).getD .null).equals other)) := by
  have howner : context.resolve "record.owner_id" = record.member ownerColumn :=
    Context.resolve_member (by decide) hrecord
  have hid : context.resolve "user.id" = (Value.map user).member "id" :=
    Context.resolve_member (by decide) huser
  have hrole : context.resolve "user.role" = (Value.map user).member "role" :=
    Context.resolve_member (by decide) huser
  -- Each macro compares one field of the caller with one other value.
  cases h with
  | ownsRecord =>
    rw [Expr.evaluate_call (f := .ownsRecord) rfl rfl, Function.apply, hid, howner]
    rfl
  | isCreator =>
    rw [Expr.evaluate_call (f := .isCreator) rfl rfl, Function.apply, hid, howner]
    rfl
  | @hasRole role _ =>
    rw [Expr.evaluate_call (f := .hasRole) rfl rfl, Function.apply, hrole, Value.equals_eq]
    rfl

/-! ## The filter -/

/-- A rule that compiles to an equality has a filter that says it, and puts in what was bound. -/
theorem exists_filter_of_equality {auth : Auth} {b : Bindings} {l r : Condition}
    {left right : Operand} (h : compile auth .empty e = .ok (.comparison .eq l r, b))
    (hl : Names l left) (hr : Names r right) :
    ∃ filter, Filter.ofExpr auth e = .ok filter ∧
      read filter.sql = some (.comparison .eq left right) ∧
      ∀ p v, (p, v) ∈ b.bound → filter.bound p.name = v := by
  obtain ⟨filter, hfilter, hsql, hbound⟩ := exists_filter_of_compile h
  refine ⟨filter, hfilter, ?_, hbound⟩
  rw [hsql]
  exact read_text (.comparison nofun hl hr) (compile_plain e h)

/-- The filter for the owner of a record compares the owner with what is bound for the caller. -/
theorem exists_filter_of_owner {auth : Auth}
    (h : compile auth .empty e = .ok (.comparison .eq (.column ownerColumn)
      (.parameter (.auth "id")), Bindings.empty.bind (.auth "id") (auth.get "id"))) :
    ∃ filter left right, Filter.ofExpr auth e = .ok filter ∧
      read filter.sql = some (.comparison .eq left right) ∧
      (left.value record.member filter.bound).equals (right.value record.member filter.bound) =
        (auth.get "id").equals (record.member ownerColumn) := by
  have howner : isKeyword ownerColumn = false := by decide +kernel
  obtain ⟨filter, hfilter, hread, hbound⟩ :=
    exists_filter_of_equality h (.column howner) (.parameter (.auth "id"))
  refine ⟨filter, _, _, hfilter, hread, ?_⟩
  rw [Operand.value, Operand.value, hbound _ _ (List.mem_cons_self ..), Value.equals_comm]

/-- Asking for a role binds the role that is asked for and the one that the caller has. -/
theorem compile_hasRole {auth : Auth} {role : Literal} (h : ∀ items, role ≠ .list items) :
    compile auth .empty (.call "@has_role" [.literal role]) =
      .ok (.comparison .eq (.parameter (.auth "role")) (.parameter (.constant 0)),
        (Bindings.empty.bindConstant role.toValue).bind (.auth "role") (auth.get "role")) := by
  cases role with
  | list items => exact absurd rfl (h items)
  | _ => rfl

/-- The filter takes a field that is missing for the empty text. -/
theorem exists_filter_of_asks (h : Asks record e field other) (auth : Auth) :
    ∃ filter left right, Filter.ofExpr auth e = .ok filter ∧
      read filter.sql = some (.comparison .eq left right) ∧
      (left.value record.member filter.bound).equals (right.value record.member filter.bound) =
        (auth.get field).equals other := by
  cases h with
  | ownsRecord => exact exists_filter_of_owner rfl
  | isCreator => exact exists_filter_of_owner rfl
  | hasRole hscalar =>
    obtain ⟨filter, hfilter, hread, hbound⟩ := exists_filter_of_equality
      (compile_hasRole hscalar) (.parameter (.auth "role")) (.parameter (.constant 0))
    have hown := hbound (.auth "role") (auth.get "role") (List.mem_cons_self ..)
    have hrole := hbound (.constant 0) _ (List.mem_cons_of_mem _ (List.mem_cons_self ..))
    refine ⟨filter, _, _, hfilter, hread, ?_⟩
    rw [Operand.value, Operand.value, hown, hrole]

/-! ## Where they agree -/

/-- **Filter and evaluator ask the caller the same, up to one default.** The macros that look at the
caller have a filter that is one equality. A record is selected by it exactly when the evaluator says
so, except where the caller lacks the field and the other side is the empty text. -/
theorem selects_eq_answer_iff (h : Asks record e field other)
    (huser : context.get? "user" = some (.map user))
    (hrecord : context.get? "record" = some record) :
    ∃ filter left right answer, Filter.ofExpr ⟨user⟩ e = .ok filter ∧
      read filter.sql = some (.comparison .eq left right) ∧
      e.evaluate context hour = .ok (.bool answer) ∧
      ((left.value record.member filter.bound).equals (right.value record.member filter.bound) =
          answer ↔ ¬(Dict.find? user field = none ∧ other = .string "")) := by
  obtain ⟨filter, left, right, hfilter, hread, hvalues⟩ := exists_filter_of_asks h ⟨user⟩
  refine ⟨filter, left, right, _, hfilter, hread, evaluate_of_asks h huser hrecord, ?_⟩
  rw [hvalues, Auth.get]
  -- Only the defaults for a missing field differ: the empty text in the filter, null for the
  -- evaluator.
  cases hfield : Dict.find? user field with
  | some v => simp
  | none =>
    show (Value.string "").equals other = Value.null.equals other ↔ _
    have hnull : Value.null.equals other = false := rfl
    rw [hnull, Value.equals_eq]
    show (Value.string "").same other = false ↔ _
    rw [← Bool.not_eq_true, Value.same_emptyText_iff]
    simp

/-- `@has_role('admin')` for a caller whose role is null and a record of nobody: the filter does not
select it, and the evaluator denies. -/
theorem selects_eq_answer_null_role :
    let user : Dict Value := [("id", .string "u1"), ("role", .null)]
    let context : Context := ⟨[("record", .map []), ("user", .map user)]⟩
    let e : Expr := .call "@has_role" [.literal (.string "admin")]
    Asks (.map []) e "role" (.string "admin") ∧ context.get? "user" = some (.map user) ∧
      context.get? "record" = some (.map []) ∧
      ∃ filter left right answer, Filter.ofExpr ⟨user⟩ e = .ok filter ∧
        read filter.sql = some (.comparison .eq left right) ∧
        e.evaluate context 0 = .ok (.bool answer) ∧
        (left.value (Value.map []).member filter.bound).equals
          (right.value (Value.map []).member filter.bound) = answer := by
  intro user context e
  have hasks : Asks (.map []) e "role" (.string "admin") := by
    refine Asks.hasRole ?_
    nofun
  have huser : context.get? "user" = some (.map user) := rfl
  have hrecord : context.get? "record" = some (.map []) := rfl
  obtain ⟨filter, left, right, answer, hfilter, hread, hanswer, hiff⟩ :=
    selects_eq_answer_iff hasks huser hrecord
  refine ⟨hasks, huser, hrecord, filter, left, right, answer, hfilter, hread, hanswer, ?_⟩
  refine hiff.mpr ?_
  intro hcase
  cases hcase.1

/-- A caller about whom nothing is known gets the records whose owner is the empty text from the
filter, but not from the evaluator. -/
theorem anonymous_selects_unowned :
    let record : Value := .map [("owner_id", .string "")]
    let context : Context := ⟨[("record", record), ("user", .map [])]⟩
    let e : Expr := .call "@owns_record" []
    e.evaluate context 0 = .ok (.bool false) ∧
      ∃ filter left right, Filter.ofExpr .empty e = .ok filter ∧
        read filter.sql = some (.comparison .eq left right) ∧
        (left.value record.member filter.bound).equals (right.value record.member filter.bound) =
          true := by
  intro record context e
  have hasks : Asks record e "id" (.string "") := .ownsRecord
  obtain ⟨filter, left, right, hfilter, hread, hvalues⟩ := exists_filter_of_asks hasks .empty
  have huser : context.get? "user" = some (.map []) := rfl
  have hanswer : e.evaluate context 0 = _ := evaluate_of_asks hasks huser rfl
  exact ⟨hanswer, filter, left, right, hfilter, hread, hvalues⟩

end Sql

end AccessRules
