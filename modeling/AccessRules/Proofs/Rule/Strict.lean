import AccessRules.Proofs.Rule.Calls

/-!
# Evaluation measured against a strict one

The strict evaluation of a rule looks at everything in it: at both operands of `and` and `or` and at
the arguments of every call. The evaluator looks at less, and so it meets fewer calls that it could
fail at. Both are described by the same two things, the value that the rule has if a malformed call
counts as null (`Expr.value`, which never fails) and the calls that are met, in order:

> `evaluateAll_eq_settle`: the strict evaluation meets all calls of the rule (`Expr.calls`), and
> `evaluate_eq_settle`: the evaluator meets those that it reaches (`Expr.reached`). Each gives the value,
> or the fault of the first malformed call that it meets.
>
> `exists_evaluate`: a rule whose listed calls all resolve has a value in every context.
> `evaluate_refines_strict`: where the strict evaluation succeeds the evaluator gives the same value, and
> it fails exactly if it reaches a malformed call, with the fault of the first one.
-/

namespace AccessRules.Rule

namespace Connective

/-- What two truth values are joined to. -/
def join : Connective → Bool → Bool → Bool
  | .and, l, r => l && r
  | .or, l, r => l || r

/-- Whether the left truth value decides whatever the right one is. -/
def decided : Connective → Bool → Bool
  | .and, l => !l
  | .or, l => l

theorem join_of_decided {op : Connective} {l : Bool} (h : op.decided l = true) (r : Bool) :
    op.join l r = l := by
  revert h
  cases op <;> cases l <;> simp [decided, join]

theorem join_of_not_decided {op : Connective} {l : Bool} (h : op.decided l = false) (r : Bool) :
    op.join l r = r := by
  revert h
  cases op <;> cases l <;> simp [decided, join]

/-- "Or" is decided by true and "and" by false. -/
theorem decided_eq_true_iff {op : Connective} {l : Bool} :
    op.decided l = true ↔ l = (op == .or) := by
  cases op <;> cases l <;> decide

end Connective

/-! ## Malformed calls -/

/-- A call that cannot be made, with its fault: the name is looked at before the arguments are
counted. -/
inductive Malformed : String × List Expr → CallFault → Prop
  | unknown {name : String} {args : List Expr} : Function.ofName? name = none →
      Malformed (name, args) (.unknownFunction name)
  | arity {name : String} {args : List Expr} {f : Function} : Function.ofName? name = some f →
      args.length ≠ f.arity → Malformed (name, args) (.wrongArity f.name f.arity args.length)

/-- The fault of a call, if it is malformed. -/
def faultOf? (call : String × List Expr) : Option CallFault :=
  match Function.resolve call.1 call.2.length with
  | .error fault => some fault
  | .ok _ => none

/-- The fault that is looked for is the one that the call is malformed with. -/
theorem faultOf?_eq_some_iff {call : String × List Expr} {fault : CallFault} :
    faultOf? call = some fault ↔ Malformed call fault := by
  obtain ⟨name, args⟩ := call
  unfold faultOf? Function.resolve
  dsimp only
  constructor
  · intro h
    cases hname : Function.ofName? name with
    | none =>
      rw [hname] at h
      cases h
      exact .unknown hname
    | some f =>
      rw [hname] at h
      by_cases hargs : args.length = f.arity
      · simp only [hargs, if_true] at h
        cases h
      · simp only [hargs, if_false] at h
        cases h
        exact .arity hname hargs
  · intro h
    cases h with
    | unknown hname => rw [hname]
    | arity hname hargs =>
      rw [hname]
      simp only [hargs, if_false]

theorem faultOf?_eq_none_iff {call : String × List Expr} :
    faultOf? call = none ↔ ∀ fault, ¬ Malformed call fault := by
  rw [Option.eq_none_iff_forall_not_mem]
  exact forall_congr' fun fault => not_congr faultOf?_eq_some_iff

/-- A call is not malformed exactly when it resolves. -/
theorem not_malformed_iff {call : String × List Expr} :
    (∀ fault, ¬ Malformed call fault) ↔ ∃ f, Function.resolve call.1 call.2.length = .ok f := by
  rw [← faultOf?_eq_none_iff, faultOf?]
  cases Function.resolve call.1 call.2.length <;> simp

/-! ## The first fault among some calls -/

/-- A result, unless one of the calls met on the way to it is malformed: then the first fault. -/
def settle {α : Type} (met : List (String × List Expr)) (result : α) : Except CallFault α :=
  match met.findSome? faultOf? with
  | some fault => .error fault
  | none => .ok result

section

variable {α β : Type} {met later : List (String × List Expr)} {a result : α} {b : β}
  {fault : CallFault}

theorem settle_nil : settle [] a = .ok a := rfl

theorem settle_cons_ok {name : String} {args : List Expr} {f : Function}
    (h : Function.resolve name args.length = .ok f) :
    settle ((name, args) :: met) a = settle met a := by
  have hnone : faultOf? (name, args) = none := by rw [faultOf?, h]
  rw [settle, settle, List.findSome?_cons, hnone]

/-- The first call that does not resolve gives its fault. -/
theorem settle_cons_error {name : String} {args : List Expr}
    (h : Function.resolve name args.length = .error fault) :
    settle ((name, args) :: met) a = .error fault := by
  have hsome : faultOf? (name, args) = some fault := by rw [faultOf?, h]
  rw [settle, List.findSome?_cons, hsome]

/-- What is settled by some calls and goes on to what is settled by others is settled by both. -/
theorem settle_bind {k : α → Except CallFault β} (h : k a = settle later b) :
    (settle met a).bind k = settle (met ++ later) b := by
  unfold settle at h ⊢
  rw [List.findSome?_append]
  cases met.findSome? faultOf? with
  | some fault => rfl
  | none => exact h

/-- Going on from a settled result without calls meets no further fault. -/
theorem settle_bind_ok {g : α → β} :
    ((settle met a).bind fun v => .ok (g v)) = settle met (g a) := by
  have h : ((settle met a).bind fun v => .ok (g v)) = settle (met ++ []) (g a) :=
    settle_bind settle_nil.symm
  rwa [List.append_nil] at h

/-- A result is reached if no call on the way is malformed. -/
theorem settle_eq_ok_iff :
    settle met a = .ok result ↔
      (∀ call ∈ met, ∀ fault, ¬ Malformed call fault) ∧ result = a := by
  simp only [← faultOf?_eq_none_iff, ← List.findSome?_eq_none_iff]
  unfold settle
  cases met.findSome? faultOf? with
  | some fault => simp
  | none => simp [eq_comm]

/-- The fault is that of the first malformed call on the way. -/
theorem settle_eq_error_iff :
    settle met a = .error fault ↔
      ∃ before call after, met = before ++ call :: after ∧ Malformed call fault ∧
        ∀ c ∈ before, ∀ f, ¬ Malformed c f := by
  have hfirst := List.findSome?_eq_some_iff (f := faultOf?) (l := met) (b := fault)
  simp only [faultOf?_eq_none_iff, faultOf?_eq_some_iff] at hfirst
  rw [← hfirst]
  unfold settle
  cases met.findSome? faultOf? with
  | some found => simp
  | none => simp

end

/-! ## Strict evaluation -/

namespace Expr

section

variable (context : Context) (hour : Hour)

mutual

/-- The value of a rule of which everything is evaluated. -/
def evaluateAll : Expr → Except CallFault Value
  | .literal value => .ok value.toValue
  | .path name => .ok (context.resolve name)
  | .comparison op left right =>
    (evaluateAll left).bind fun l =>
      (evaluateAll right).bind fun r => .ok (.bool (op.holds l r))
  | .connective op left right =>
    (evaluateAll left).bind fun l =>
      (evaluateAll right).bind fun r => .ok (.bool (op.join l.isTruthy r.isTruthy))
  | .not operand => (evaluateAll operand).bind fun v => .ok (.bool !v.isTruthy)
  | .call name args =>
    (Function.resolve name args.length).bind fun f =>
      (evaluateAllArgs args).bind fun values => .ok (.bool (f.apply context hour values))

/-- The values of arguments of which everything is evaluated. -/
def evaluateAllArgs : List Expr → Except CallFault (List Value)
  | [] => .ok []
  | arg :: args =>
    (evaluateAll arg).bind fun value =>
      (evaluateAllArgs args).bind fun values => .ok (value :: values)

end

mutual

/-- The value that a rule has if a malformed call counts as null. -/
def value : Expr → Value
  | .literal value => value.toValue
  | .path name => context.resolve name
  | .comparison op left right => .bool (op.holds (value left) (value right))
  | .connective op left right =>
    .bool (op.join (value left).isTruthy (value right).isTruthy)
  | .not operand => .bool !(value operand).isTruthy
  | .call name args =>
    match Function.resolve name args.length with
    | .ok f => .bool (f.apply context hour (argValues args))
    | .error _ => .null

/-- The values that arguments have if a malformed call counts as null. -/
def argValues : List Expr → List Value
  | [] => []
  | arg :: args => value arg :: argValues args

end

mutual

/-- The calls that are reached from left to right: of the right operand of a connective only if the
left one does not decide, among arguments only if the call that they are for can be made. What stands
behind a malformed call plays no part, the evaluation ends there. -/
def reached : Expr → List (String × List Expr)
  | .literal _ => []
  | .path _ => []
  | .comparison _ left right => reached left ++ reached right
  | .connective op left right =>
    reached left ++ if op.decided (value context hour left).isTruthy then [] else reached right
  | .not operand => reached operand
  | .call name args =>
    (name, args) ::
      match Function.resolve name args.length with
      | .ok _ => argReached args
      | .error _ => []

/-- The calls that are reached in some arguments. -/
def argReached : List Expr → List (String × List Expr)
  | [] => []
  | arg :: args => reached arg ++ argReached args

end

/-! ## Both evaluations by the calls that they meet -/

mutual

/-- **The strict evaluation meets all calls of a rule.** -/
theorem evaluateAll_eq_settle :
    (e : Expr) → e.evaluateAll context hour = settle e.calls (e.value context hour)
  | .literal _ => rfl
  | .path _ => rfl
  | .comparison op left right => by
    rw [evaluateAll, evaluateAll_eq_settle left, evaluateAll_eq_settle right, calls, value]
    exact settle_bind settle_bind_ok
  | .connective op left right => by
    rw [evaluateAll, evaluateAll_eq_settle left, evaluateAll_eq_settle right, calls, value]
    exact settle_bind settle_bind_ok
  | .not operand => by
    rw [evaluateAll, evaluateAll_eq_settle operand, calls, value]
    exact settle_bind_ok
  | .call name args => by
    rw [evaluateAll, evaluateAllArgs_eq_settle args, calls, value]
    -- A call that cannot be made is met before its arguments, and so is its fault.
    cases hcall : Function.resolve name args.length with
    | error fault =>
      rw [settle_cons_error hcall]
      rfl
    | ok f =>
      rw [settle_cons_ok hcall]
      exact settle_bind_ok

theorem evaluateAllArgs_eq_settle : (args : List Expr) →
    evaluateAllArgs context hour args = settle (argCalls args) (argValues context hour args)
  | [] => rfl
  | arg :: args => by
    rw [evaluateAllArgs, evaluateAll_eq_settle arg, evaluateAllArgs_eq_settle args, argCalls,
      argValues]
    exact settle_bind settle_bind_ok

end

section

variable {context hour} {left right operand arg : Expr} {args : List Expr}

/-- Both operands of a comparison are evaluated, the left one first. -/
theorem evaluate_comparison {op : Comparison} :
    (comparison op left right).evaluate context hour =
      (left.evaluate context hour).bind fun l =>
        (right.evaluate context hour).bind fun r => .ok (.bool (op.holds l r)) := by
  rw [evaluate]
  cases left.evaluate context hour with
  | error fault => rfl
  | ok l => cases right.evaluate context hour <;> rfl

/-- The right operand is evaluated only if the left one does not decide, and the value is a truth
value in any case. -/
theorem evaluate_connective {op : Connective} :
    (connective op left right).evaluate context hour =
      (left.evaluate context hour).bind fun l =>
        if op.decided l.isTruthy then .ok (.bool l.isTruthy)
        else (right.evaluate context hour).bind fun r => .ok (.bool r.isTruthy) := by
  rw [evaluate]
  simp only [Connective.decided_eq_true_iff]
  cases left.evaluate context hour with
  | error fault => rfl
  | ok l => cases right.evaluate context hour <;> rfl

theorem evaluate_not :
    (not operand).evaluate context hour =
      (operand.evaluate context hour).bind fun v => .ok (.bool !v.isTruthy) := by
  rw [evaluate]
  cases operand.evaluate context hour <;> rfl

/-- The arguments of a call are evaluated once the call itself is known to be well formed. -/
theorem evaluate_call_of_resolve {name : String} {f : Function}
    (h : Function.resolve name args.length = .ok f) :
    (call name args).evaluate context hour =
      (evaluateArgs context hour args).bind fun values =>
        .ok (.bool (f.apply context hour values)) := by
  rw [evaluate, h]
  dsimp only
  cases evaluateArgs context hour args <;> rfl

theorem evaluateArgs_cons :
    evaluateArgs context hour (arg :: args) =
      (arg.evaluate context hour).bind fun value =>
        (evaluateArgs context hour args).bind fun values => .ok (value :: values) := by
  rw [evaluateArgs]
  cases arg.evaluate context hour with
  | error fault => rfl
  | ok value => cases evaluateArgs context hour args <;> rfl

end

mutual

/-- **The evaluator meets the calls that it reaches.** -/
theorem evaluate_eq_settle :
    (e : Expr) → e.evaluate context hour = settle (e.reached context hour) (e.value context hour)
  | .literal _ => rfl
  | .path _ => rfl
  | .comparison op left right => by
    rw [evaluate_comparison, evaluate_eq_settle left, evaluate_eq_settle right, reached, value]
    exact settle_bind settle_bind_ok
  | .connective op left right => by
    rw [evaluate_connective, evaluate_eq_settle left, evaluate_eq_settle right, reached, value]
    refine settle_bind ?_
    -- A left operand that decides is the value of both, with nothing reached on the right.
    by_cases hdecided : op.decided (left.value context hour).isTruthy = true
    · rw [if_pos hdecided, if_pos hdecided, Connective.join_of_decided hdecided]
      exact settle_nil.symm
    · rw [if_neg hdecided, if_neg hdecided,
        Connective.join_of_not_decided (Bool.eq_false_iff.mpr hdecided)]
      exact settle_bind_ok
  | .not operand => by
    rw [evaluate_not, evaluate_eq_settle operand, reached, value]
    exact settle_bind_ok
  | .call name args => by
    rw [reached, value]
    cases hcall : Function.resolve name args.length with
    | error fault => rw [settle_cons_error hcall, evaluate, hcall]
    | ok f =>
      rw [settle_cons_ok hcall, evaluate_call_of_resolve hcall, evaluateArgs_eq_settle args]
      exact settle_bind_ok

theorem evaluateArgs_eq_settle : (args : List Expr) →
    evaluateArgs context hour args =
      settle (argReached context hour args) (argValues context hour args)
  | [] => rfl
  | arg :: args => by
    rw [evaluateArgs_cons, evaluate_eq_settle arg, evaluateArgs_eq_settle args, argReached,
      argValues]
    exact settle_bind settle_bind_ok

end

/-! ## The evaluator meets no other calls -/

mutual

/-- The calls that are reached stand in the rule, in the order in which they are reached. -/
theorem reached_sublist_calls : (e : Expr) → (e.reached context hour).Sublist e.calls
  | .literal _ => .slnil
  | .path _ => .slnil
  | .comparison op left right => by
    rw [reached, calls]
    exact (reached_sublist_calls left).append (reached_sublist_calls right)
  | .connective op left right => by
    rw [reached, calls]
    refine (reached_sublist_calls left).append ?_
    split
    · exact List.nil_sublist _
    · exact reached_sublist_calls right
  | .not operand => by
    rw [reached, calls]
    exact reached_sublist_calls operand
  | .call name args => by
    rw [reached, calls]
    refine List.Sublist.cons_cons _ ?_
    split
    · exact argReached_sublist_argCalls args
    · exact List.nil_sublist _

theorem argReached_sublist_argCalls :
    (args : List Expr) → (argReached context hour args).Sublist (argCalls args)
  | [] => .slnil
  | arg :: args => by
    rw [argReached, argCalls]
    exact (reached_sublist_calls arg).append (argReached_sublist_argCalls args)

end

/-- A rule whose calls all resolve has a value in every context. -/
theorem exists_evaluate (e : Expr)
    (h : ∀ c ∈ e.calls, ∃ f, Function.resolve c.1 c.2.length = .ok f) :
    ∃ v, e.evaluate context hour = .ok v := by
  refine ⟨e.value context hour, ?_⟩
  rw [evaluate_eq_settle]
  -- No other calls are reached than stand in the rule.
  have hsubset := (reached_sublist_calls context hour e).subset
  exact settle_eq_ok_iff.mpr ⟨fun c hc => not_malformed_iff.mpr (h c (hsubset hc)), rfl⟩

/-- There are as many values as arguments, so the count of a call can be checked on either. -/
theorem length_argValues (args : List Expr) :
    (argValues context hour args).length = args.length := by
  induction args with
  | nil => rfl
  | cons arg args ih => rw [argValues, List.length_cons, List.length_cons, ih]

/-- Arguments whose calls all resolve have as many values as there are arguments. -/
theorem exists_evaluateArgs (args : List Expr)
    (h : ∀ c ∈ argCalls args, ∃ f, Function.resolve c.1 c.2.length = .ok f) :
    ∃ values, evaluateArgs context hour args = .ok values ∧ values.length = args.length := by
  refine ⟨argValues context hour args, ?_, length_argValues context hour args⟩
  rw [evaluateArgs_eq_settle]
  have hsubset := (argReached_sublist_argCalls context hour args).subset
  exact settle_eq_ok_iff.mpr ⟨fun c hc => not_malformed_iff.mpr (h c (hsubset hc)), rfl⟩

/-- **Evaluation refines the strict evaluation, and fails exactly at a malformed call that it
reaches.** Where the strict evaluation gives a value the evaluator gives the same one. It fails if and
only if a malformed call is reached, with the fault of the first one; it gives a value if and only if
none is reached. -/
theorem evaluate_refines_strict (e : Expr) :
    (∀ v, e.evaluateAll context hour = .ok v → e.evaluate context hour = .ok v) ∧
    (∀ fault, e.evaluate context hour = .error fault ↔
      ∃ before call after, e.reached context hour = before ++ call :: after ∧
        Malformed call fault ∧ ∀ c ∈ before, ∀ f, ¬ Malformed c f) ∧
    ∀ v, e.evaluate context hour = .ok v ↔
      (∀ c ∈ e.reached context hour, ∀ f, ¬ Malformed c f) ∧ v = e.value context hour := by
  rw [evaluateAll_eq_settle, evaluate_eq_settle]
  refine ⟨fun v hv => ?_, fun fault => settle_eq_error_iff, fun v => settle_eq_ok_iff⟩
  -- What is not malformed anywhere is not malformed where it is reached.
  obtain ⟨hall, hvalue⟩ := settle_eq_ok_iff.mp hv
  have hsublist := reached_sublist_calls context hour e
  exact settle_eq_ok_iff.mpr ⟨fun c hc => hall c (hsublist.subset hc), hvalue⟩

/-- Three rules for a draft: a call of no function behind `draft or`, which the evaluator does not
reach; `contains` with one argument behind `draft and`, which it reaches; and two operands that the
strict evaluation gives a value, too. -/
theorem evaluate_refines_strict_draft :
    let context : Context := ⟨[("draft", .bool true), ("title", .string "news")]⟩
    let unknown : Expr := .call "f" [.path "title"]
    let short : Expr := .call "contains" [unknown]
    (connective .or (.path "draft") unknown).evaluateAll context 0 =
        .error (.unknownFunction "f") ∧
      (connective .or (.path "draft") unknown).evaluate context 0 = .ok (.bool true) ∧
      (connective .and (.path "draft") short).evaluate context 0 =
        .error (.wrongArity "contains" 2 1) ∧
      (connective .and (.path "draft") (.path "title")).evaluateAll context 0 = .ok (.bool true) ∧
      (connective .and (.path "draft") (.path "title")).evaluate context 0 = .ok (.bool true) := by
  intro context unknown short
  have hunreached := (evaluate_refines_strict context 0 (.connective .or (.path "draft") unknown)).2.2
  have hreached := (evaluate_refines_strict context 0 (.connective .and (.path "draft") short)).2.1
  have hstrict :=
    (evaluate_refines_strict context 0 (.connective .and (.path "draft") (.path "title"))).1
  refine ⟨rfl, (hunreached _).mpr ⟨nofun, rfl⟩, (hreached _).mpr ?_, rfl, hstrict _ rfl⟩
  exact ⟨[], ("contains", [unknown]), [], rfl, .arity (f := .contains) rfl (by decide), nofun⟩

end

end Expr

end AccessRules.Rule
