import AccessRules.Proofs.Permission.Totality

/-!
# What a checked rule can depend on

A rule that was checked for an operation of a collection decides by the fields of the collection, by
four fields of the caller, by the request body where the operation has one, and by what the macros
look up. Nothing else in a context reaches the decision:

> `decisions_agree_of_check`: two contexts that agree on these decide alike, whatever else they hold.

The statement is about two runs of a guard. Each read of the evaluator is a path of the rule or one
of a macro; the check admits a path of the rule only if it is among those on which the contexts
agree.
-/

namespace AccessRules

open Rule

/-- Contexts that give the same values to everything that a checked rule may look at. -/
structure Rule.Context.Agree (operation : Operation) (fields : List String)
    (context context' : Context) : Prop where
  fields : ∀ name ∈ fields, context.resolve name = context'.resolve name
  caller : ∀ field ∈ ["id", "email", "role", "account_id"],
    context.resolve ("@request.auth." ++ field) = context'.resolve ("@request.auth." ++ field)
  body : operation = .create ∨ operation = .update → ∀ field,
    context.resolve ("@request.data." ++ field) = context'.resolve ("@request.data." ++ field)
  macros : ∀ path ∈ ["user.id", "user.role", "user.groups", "record.owner_id", "permissions"],
    context.resolve path = context'.resolve path

/-- The operations with a request body. -/
theorem Operation.hasRequestData_iff {operation : Operation} :
    operation.hasRequestData = true ↔ operation = .create ∨ operation = .update := by
  cases operation <;> simp [hasRequestData]

namespace Guard

variable {operation : Operation} {fields : List String} {context context' : Context}

/-- A path without violations leads to the same value in contexts that agree. -/
theorem resolve_eq_of_agree (h : context.Agree operation fields context') {path : String}
    (hpath : pathViolations operation fields path = []) :
    context.resolve path = context'.resolve path := by
  rw [← Variable.path_ofPath path]
  rcases pathViolations_eq_nil_iff.mp hpath with
    ⟨field, hof, hfield⟩ | ⟨field, hof, hbody⟩ | ⟨name, hof, hname⟩
  · rw [hof]
    exact h.caller field hfield
  · rw [hof]
    exact h.body (Operation.hasRequestData_iff.mp hbody) field
  · rw [hof]
    exact h.fields name hname

/-- A rule without violations has a value, which is the same in contexts that agree. -/
theorem exists_evaluate_of_agree (h : context.Agree operation fields context') (hour : Hour)
    {e : Expr} (he : e.violations operation fields = []) :
    ∃ v, e.evaluate context hour = .ok v ∧ e.evaluate context' hour = .ok v := by
  obtain ⟨v, hv⟩ := e.exists_evaluate context hour fun c hc =>
    Expr.resolve_of_violations_eq_nil he hc
  refine ⟨v, hv, ?_⟩
  have hsame : e.evaluate context hour = e.evaluate context' hour :=
    Expr.evaluate_eq_of_paths h.macros e fun path hpath =>
      resolve_eq_of_agree h (Expr.pathViolations_of_violations_eq_nil he hpath)
  rw [← hsame, hv]

/-- **A checked rule depends on nothing else.** In two contexts that agree on the fields of the
collection, the allowed fields of the caller, the request body of `create` and `update` and what
macros look up, a guard that passed its check lets the same requests through, and its rule has the
same value. -/
theorem decisions_agree_of_check {guard : Guard} (h : guard.check operation fields = .ok ())
    (hagree : context.Agree operation fields context') (hour : Hour) :
    (∃ b, guard.admits context hour = .ok b ∧ guard.admits context' hour = .ok b) ∧
    ∀ source e, guard = .rule source → parse source = .ok e →
      ∃ v, e.evaluate context hour = .ok v ∧ e.evaluate context' hour = .ok v := by
  cases guard with
  | denyAll => exact ⟨⟨false, rfl, rfl⟩, nofun⟩
  | allowAll => exact ⟨⟨true, rfl, rfl⟩, nofun⟩
  | rule source =>
    -- The check rules a fault out, so both contexts give a value and it is one value.
    obtain ⟨e, hparse, hviolations⟩ := exists_rule_of_check h
    obtain ⟨v, hv, hv'⟩ := exists_evaluate_of_agree hagree hour hviolations
    constructor
    · refine ⟨v.isTruthy, ?_, ?_⟩
      · simp only [admits, hparse, Expr.holds, hv]
        rfl
      · simp only [admits, hparse, Expr.holds, hv']
        rfl
    · intro source' e' hguard hparse'
      cases hguard
      rw [hparse] at hparse'
      cases hparse'
      exact ⟨v, hv, hv'⟩

/-- A rule for creating records, in two contexts that differ in the password of the caller, in a
key that is no field, and in what else is known about the user. -/
theorem decisions_agree_create :
    let source :=
      "@has_role('editor') and title == @request.data.title or @request.auth.id == 'root'"
    let fields := ["id", "title"]
    let context (password : String) (level : Int64) : Context := ⟨[
      ("@request", .map [
        ("auth", .map [("id", .string "u1"), ("password", .string password)]),
        ("data", .map [("title", .string "new")])]),
      ("level", .int level), ("title", .string "new"),
      ("user", .map [("level", .int level), ("role", .string "editor")])]⟩
    (rule source).check .create fields = .ok () ∧
      (context "a" 1).Agree .create fields (context "b" 2) ∧
      (context "a" 1).resolve "@request.auth.password" ≠
        (context "b" 2).resolve "@request.auth.password" ∧
      ∃ b, (rule source).admits (context "a" 1) 0 = .ok b ∧
        (rule source).admits (context "b" 2) 0 = .ok b := by
  intro source fields context
  have hcheck : (rule source).check .create fields = .ok () := by
    have hpasses : ((rule source).check .create fields).toOption = some () := by decide +kernel
    cases h : (rule source).check .create fields with
    | ok u => rfl
    | error e =>
      rw [h] at hpasses
      cases hpasses
  have hagree : (context "a" 1).Agree .create fields (context "b" 2) := by
    refine ⟨?_, ?_, ?_, ?_⟩
    · simp only [fields, List.forall_mem_cons]
      exact ⟨rfl, rfl, by simp⟩
    · simp only [List.forall_mem_cons]
      exact ⟨rfl, rfl, rfl, rfl, by simp⟩
    · intro _
      exact Context.resolve_body_eq rfl
    · simp only [List.forall_mem_cons]
      exact ⟨rfl, rfl, rfl, rfl, rfl, by simp⟩
  refine ⟨hcheck, hagree, ?_, (decisions_agree_of_check hcheck hagree 0).1⟩
  intro h
  have hpassword : Value.string "a" = Value.string "b" := h
  exact absurd (Value.string.inj hpassword) (by decide)

end Guard

end AccessRules
