import AccessRules.Proofs.Rule.Resolution
import AccessRules.Rule.Evaluate
import AccessRules.Rule.Violation

/-!
# The paths in a rule

A rule reads its context through the paths that stand in it, and through the few that its macros
look up without naming them. `Expr.paths` lists the former, those among the arguments of calls
included, and the evaluator is measured against it:

> `evaluate_eq_of_paths`: contexts that give the listed paths and those of the macros the same
> values give the rule the same value, or the same fault.
-/

namespace AccessRules.Rule

namespace Variable

/-- The path that refers to a variable. -/
def path : Variable → String
  | .auth f => authStart ++ f
  | .data f => dataStart ++ f
  | .field name => name

/-- What stands behind a start gives the text back together with it. -/
theorem append_of_behind? {start text rest : String}
    (h : behind? start text = some rest) : start ++ rest = text := by
  unfold behind? at h
  split at h
  next hprefix =>
    cases h
    obtain ⟨tail, htail⟩ := List.isPrefixOf_iff_prefix.mp hprefix
    rw [← String.toList_inj, String.toList_append, String.toList_ofList, ← htail, List.drop_left]
  next => cases h

/-- A path is the only one that refers to what it refers to. -/
theorem path_ofPath (path : String) : (ofPath path).path = path := by
  unfold ofPath
  cases hauth : behind? authStart path with
  | some rest => exact append_of_behind? hauth
  | none =>
    cases hdata : behind? dataStart path with
    | some rest => exact append_of_behind? hdata
    | none => rfl

end Variable

/-! ## Paths into the request -/

namespace Context

/-- Contexts with the same request body give the same values to all paths into it. -/
theorem resolve_body_eq {context context' : Context}
    (h : (context.get? "@request").map (Value.member · "data") =
      (context'.get? "@request").map (Value.member · "data")) (field : String) :
    context.resolve ("@request.data." ++ field) = context'.resolve ("@request.data." ++ field) := by
  have hbody (c : Context) : c.resolve "@request.data" =
      ((c.get? "@request").map (Value.member · "data")).getD .null := by
    have hnames : names "@request.data" = ["@request", "data"] := by decide
    rw [resolve_of_names hnames, follow_cons]
    cases c.get? "@request" <;> rfl
  have hpath : "@request.data." ++ field = "@request.data" ++ "." ++ field := rfl
  rw [hpath, resolve_append, resolve_append, hbody, hbody, h]

end Context

/-! ## The paths of a rule -/

/-- A path without violations refers to an allowed field of the caller, to the request body where
there is one, or to a field of the collection. -/
theorem pathViolations_eq_nil_iff {operation : Operation} {fields : List String} {path : String} :
    pathViolations operation fields path = [] ↔
      (∃ field, Variable.ofPath path = .auth field ∧ field ∈ Variable.authFields) ∨
      (∃ field, Variable.ofPath path = .data field ∧ operation.hasRequestData = true) ∨
      (∃ name, Variable.ofPath path = .field name ∧ name ∈ fields) := by
  unfold pathViolations
  cases h : Variable.ofPath path with
  | auth field => simp [Variable.isAuthField]
  | data field => simp
  | field name => simp

namespace Expr

mutual

/-- The paths in a rule, from left to right. -/
def paths : Expr → List String
  | .literal _ => []
  | .path name => [name]
  | .comparison _ left right => paths left ++ paths right
  | .connective _ left right => paths left ++ paths right
  | .not operand => paths operand
  | .call _ args => argPaths args

/-- The paths in some arguments. -/
def argPaths : List Expr → List String
  | [] => []
  | arg :: args => paths arg ++ argPaths args

end

end Expr

/-! ## The evaluator reads nothing else -/

variable {context context' : Context} {hour : Hour}

/-- The paths that macros look up without their standing in the rule. -/
def Function.macroPaths : List String :=
  ["user.id", "user.role", "user.groups", "record.owner_id", "permissions"]

/-- What a function answers to its arguments depends on no other paths. -/
theorem Function.apply_eq_of_macroPaths
    (h : ∀ path ∈ macroPaths, context.resolve path = context'.resolve path) (f : Function)
    (args : List Value) : f.apply context hour args = f.apply context' hour args := by
  simp only [macroPaths, List.forall_mem_cons] at h
  obtain ⟨hid, hrole, hgroups, howner, hpermissions, -⟩ := h
  unfold apply
  rw [hid, hrole, hgroups, howner, hpermissions]

namespace Expr

mutual

/-- Contexts that give the paths of a rule the same values give the rule the same value, if every
function answers alike in both. -/
theorem evaluate_eq_of_apply_eq
    (happly : ∀ (f : Function) args, f.apply context hour args = f.apply context' hour args) :
    (e : Expr) → (∀ path ∈ e.paths, context.resolve path = context'.resolve path) →
      e.evaluate context hour = e.evaluate context' hour
  | .literal _, _ => by rw [evaluate, evaluate]
  | .path name, h => by
    rw [paths, List.forall_mem_singleton] at h
    rw [evaluate, evaluate, h]
  | .comparison _ left right, h => by
    rw [paths, List.forall_mem_append] at h
    rw [evaluate, evaluate, evaluate_eq_of_apply_eq happly left h.1,
      evaluate_eq_of_apply_eq happly right h.2]
  | .connective _ left right, h => by
    rw [paths, List.forall_mem_append] at h
    rw [evaluate, evaluate, evaluate_eq_of_apply_eq happly left h.1,
      evaluate_eq_of_apply_eq happly right h.2]
  | .not operand, h => by
    rw [paths] at h
    rw [evaluate, evaluate, evaluate_eq_of_apply_eq happly operand h]
  | .call name args, h => by
    rw [paths] at h
    rw [evaluate, evaluate, evaluateArgs_eq_of_apply_eq happly args h]
    -- Whether the call resolves has nothing to do with the context.
    cases Function.resolve name args.length with
    | error fault => rfl
    | ok f =>
      cases evaluateArgs context' hour args with
      | error fault => rfl
      | ok values => simp only [happly]

/-- Arguments have the same values in two contexts in which their paths and the functions agree. -/
theorem evaluateArgs_eq_of_apply_eq
    (happly : ∀ (f : Function) args, f.apply context hour args = f.apply context' hour args) :
    (args : List Expr) → (∀ path ∈ argPaths args, context.resolve path = context'.resolve path) →
      evaluateArgs context hour args = evaluateArgs context' hour args
  | [], _ => by rw [evaluateArgs, evaluateArgs]
  | arg :: args, h => by
    rw [argPaths, List.forall_mem_append] at h
    rw [evaluateArgs, evaluateArgs, evaluate_eq_of_apply_eq happly arg h.1,
      evaluateArgs_eq_of_apply_eq happly args h.2]

end

/-- **A rule reads its context through its own paths and those of the macros only.** -/
theorem evaluate_eq_of_paths
    (hmacros : ∀ path ∈ Function.macroPaths, context.resolve path = context'.resolve path)
    (e : Expr) (h : ∀ path ∈ e.paths, context.resolve path = context'.resolve path) :
    e.evaluate context hour = e.evaluate context' hour :=
  evaluate_eq_of_apply_eq (Function.apply_eq_of_macroPaths hmacros) e h

end Expr

end AccessRules.Rule
