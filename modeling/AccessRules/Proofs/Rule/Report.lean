import AccessRules.Proofs.Rule.Strict
import AccessRules.Proofs.Rule.Violations

/-!
# The report of a check

A check walks through a rule node by node and reports each violation once. What a single node has
against it is said by `Expr.Exhibits`, and `Expr.nodes` lists the nodes from left to right, a call
before its arguments, whatever becomes of the call:

> `occurrences_eq_flatMap`: the walk collects what the nodes exhibit, in their order.
> `pairwise_eraseDups`: taking repetitions out leaves each violation where it came up first.
> `violations_report`: the report has no repetitions, holds what some node exhibits and nothing else,
> and goes by the first node that exhibits a violation; that of two operands is the report of the
> left one and behind it what is new in the other; and a rule passes if it can be read and there is
> nothing to report.
-/

namespace AccessRules.Rule

/-! ## Taking repetitions out -/

section

variable {α : Type} [DecidableEq α]

/-- Repetitions can be taken out before or after a selection. -/
theorem eraseDups_filter (p : α → Bool) (l : List α) :
    (l.filter p).eraseDups = l.eraseDups.filter p := by
  cases l with
  | nil => rfl
  | cons a as =>
    have ih := eraseDups_filter p (as.filter fun b => !b == a)
    rw [List.eraseDups_cons, List.filter_cons, List.filter_cons, ← ih, List.filter_filter]
    by_cases ha : p a = true
    · rw [if_pos ha, if_pos ha, List.eraseDups_cons, List.filter_filter]
      simp only [Bool.and_comm]
    · rw [if_neg ha, if_neg ha]
      -- What is selected is not the item that is left out.
      congr 1
      apply List.filter_congr
      intro b _
      by_cases hba : b = a
      · subst hba
        simp [ha]
      · simp [hba]
termination_by l.length
decreasing_by exact Nat.lt_add_one_of_le (List.length_filter_le _ as)

/-- Two lists put together, without what the second repeats of the first. -/
def merged (l r : List α) : List α :=
  l ++ r.filter fun b => b ∉ l

/-- Of two lists put together the second keeps what is not in the first. -/
theorem eraseDups_append_eq (l r : List α) :
    (l ++ r).eraseDups = merged l.eraseDups r.eraseDups := by
  rw [merged, List.eraseDups_append, List.removeAll, eraseDups_filter]
  congr 1
  apply List.filter_congr
  intro b _
  simp

/-- Without repetitions every item stands where it came up first: behind an item come those that
did not come up before it or with it. -/
theorem pairwise_eraseDups (l : List α) :
    l.eraseDups.Pairwise fun a b => ∃ before after, l = before ++ a :: after ∧ b ∉ before ++ [a] := by
  cases l with
  | nil => exact .nil
  | cons a as =>
    have hother : ∀ b ∈ (as.filter fun b => !b == a).eraseDups, b ≠ a := by
      intro b hb
      have := (List.mem_filter.mp (List.mem_eraseDups.mp hb)).2
      simpa using this
    rw [List.eraseDups_cons]
    refine List.pairwise_cons.mpr ⟨?_, ?_⟩
    · intro b hb
      exact ⟨[], as, rfl, by simpa using hother b hb⟩
    · refine (pairwise_eraseDups (as.filter fun b => !b == a)).imp_of_mem ?_
      rintro b c - hc ⟨before, after, hsplit, hnew⟩
      obtain ⟨front, rest, rfl, rfl, hrest⟩ := List.filter_eq_append_iff.mp hsplit
      obtain ⟨skipped, after', rfl, hskipped, -, -⟩ := List.filter_eq_cons_iff.mp hrest
      refine ⟨a :: (front ++ skipped), after', by simp, ?_⟩
      -- The items that were left out in between are the first one again.
      have hskip : c ∉ skipped := fun h => hskipped c h (by simpa using hother c hc)
      simpa [hother c hc, hskip] using hnew
termination_by l.length
decreasing_by exact Nat.lt_add_one_of_le (List.length_filter_le _ as)

end

/-- Where an item stands in lists put together it stands in one of them, and what is in the lists
before that one comes before it. -/
theorem exists_mem_of_flatMap_eq {α β : Type} {f : α → List β} {l : List α} {before after : List β}
    {b : β} (h : l.flatMap f = before ++ b :: after) :
    ∃ front a rest, l = front ++ a :: rest ∧ b ∈ f a ∧ ∀ x ∈ front, ∀ y ∈ f x, y ∈ before := by
  induction l generalizing before with
  | nil => simp at h
  | cons a l ih =>
    rw [List.flatMap_cons, List.append_eq_append_iff] at h
    rcases h with ⟨more, rfl, hrest⟩ | ⟨own, hown, hafter⟩
    · -- The list of the first one ends before the item.
      obtain ⟨front, x, rest, rfl, hx, hfront⟩ := ih hrest
      refine ⟨a :: front, x, rest, rfl, hx, ?_⟩
      intro x' hx' y hy
      rw [List.mem_append]
      rcases List.mem_cons.mp hx' with rfl | hx'
      · exact .inl hy
      · exact .inr (hfront x' hx' y hy)
    · -- With nothing of its own left the first one ends right before the item; otherwise the item
      -- is its own.
      cases own with
      | nil =>
        have hrest : l.flatMap f = [] ++ b :: after := hafter.symm
        obtain ⟨front, x, rest, rfl, hx, hfront⟩ := ih hrest
        refine ⟨a :: front, x, rest, rfl, hx, ?_⟩
        intro x' hx' y hy
        rw [List.append_nil] at hown
        rcases List.mem_cons.mp hx' with rfl | hx'
        · exact hown ▸ hy
        · cases hfront x' hx' y hy
      | cons b' own =>
        obtain ⟨rfl, -⟩ := List.cons.inj hafter
        exact ⟨[], a, l, rfl, by simp [hown], by simp⟩

/-! ## The nodes of a rule and what they exhibit -/

namespace Expr

mutual

/-- The nodes of a rule from left to right, each before those below it. -/
def nodes : Expr → List Expr
  | .literal value => [.literal value]
  | .path name => [.path name]
  | .comparison op left right => .comparison op left right :: (nodes left ++ nodes right)
  | .connective op left right => .connective op left right :: (nodes left ++ nodes right)
  | .not operand => .not operand :: nodes operand
  | .call name args => .call name args :: argNodes args

/-- The nodes of some arguments. -/
def argNodes : List Expr → List Expr
  | [] => []
  | arg :: args => nodes arg ++ argNodes args

end

section

variable {operation : Operation} {fields : List String} {e : Expr} {v w : Violation}

/-- A node of a rule has a violation of its own: it is a path to a field that the collection does
not have, to a field of the caller that no rule may use, or to the request body where there is
none; or it is a call that cannot be made. -/
inductive Exhibits (operation : Operation) (fields : List String) : Expr → Violation → Prop
  | unknownField {path name : String} : Variable.ofPath path = .field name → name ∉ fields →
      Exhibits operation fields (.path path) (.unknownField name)
  | authField {path field : String} : Variable.ofPath path = .auth field →
      field ∉ Variable.authFields → Exhibits operation fields (.path path) (.authField field)
  | requestData {path field : String} : Variable.ofPath path = .data field →
      operation.hasRequestData = false →
      Exhibits operation fields (.path path) (.requestData field operation)
  | call {name : String} {args : List Expr} {fault : CallFault} : Malformed (name, args) fault →
      Exhibits operation fields (.call name args) (.call fault)

/-- What is found at a node itself. -/
def ownViolations (operation : Operation) (fields : List String) : Expr → List Violation
  | .path name => pathViolations operation fields name
  | .call name args => callViolations name args.length
  | _ => []

/-- What is found about a path is what its node exhibits. -/
theorem mem_pathViolations_iff {path : String} :
    v ∈ pathViolations operation fields path ↔ Exhibits operation fields (.path path) v := by
  unfold pathViolations
  constructor
  · intro h
    cases hpath : Variable.ofPath path with
    | auth field =>
      simp only [hpath, List.mem_ite_nil_left, List.mem_singleton] at h
      obtain ⟨hfield, rfl⟩ := h
      exact .authField hpath (by simpa [Variable.isAuthField] using hfield)
    | data field =>
      simp only [hpath, List.mem_ite_nil_left, List.mem_singleton] at h
      obtain ⟨hdata, rfl⟩ := h
      exact .requestData hpath (by simpa using hdata)
    | field name =>
      simp only [hpath, List.mem_ite_nil_left, List.mem_singleton] at h
      obtain ⟨hname, rfl⟩ := h
      exact .unknownField hpath (by simpa using hname)
  · intro h
    cases h with
    | unknownField hpath hname => simp [hpath, hname]
    | authField hpath hfield => simp [hpath, Variable.isAuthField, hfield]
    | requestData hpath hdata => simp [hpath, hdata]

theorem mem_callViolations_iff {name : String} {args : List Expr} :
    v ∈ callViolations name args.length ↔ Exhibits operation fields (.call name args) v := by
  -- Both ask for the function of the name, and then for the number of its arguments.
  have hfault : ∀ fault, Malformed (name, args) fault ↔
      Function.resolve name args.length = .error fault := by
    intro fault
    rw [← faultOf?_eq_some_iff, faultOf?]
    cases Function.resolve name args.length <;> simp
  unfold callViolations
  constructor
  · intro h
    cases hresolve : Function.resolve name args.length with
    | ok f => simp [hresolve] at h
    | error fault =>
      simp only [hresolve, List.mem_singleton] at h
      rw [h]
      exact .call ((hfault fault).mpr hresolve)
  · intro h
    cases h with
    | call hmalformed => simp [(hfault _).mp hmalformed]

/-- Looking at a node finds what the node exhibits; only paths and calls exhibit anything. -/
theorem mem_ownViolations_iff :
    v ∈ e.ownViolations operation fields ↔ e.Exhibits operation fields v := by
  cases e with
  | path name => exact mem_pathViolations_iff
  | call name args => exact mem_callViolations_iff
  | literal value => constructor <;> intro h <;> cases h
  | comparison op left right => constructor <;> intro h <;> cases h
  | connective op left right => constructor <;> intro h <;> cases h
  | not operand => constructor <;> intro h <;> cases h

/-- A node has at most one violation. -/
theorem Exhibits.unique (h : e.Exhibits operation fields v) (h' : e.Exhibits operation fields w) :
    v = w := by
  -- The list of what is found at a node has one entry at most.
  rw [← mem_ownViolations_iff] at h h'
  cases e with
  | path name =>
    unfold ownViolations pathViolations at h h'
    cases hpath : Variable.ofPath name with
    | auth field =>
      simp only [hpath, List.mem_ite_nil_left, List.mem_singleton] at h h'
      rw [h.2, h'.2]
    | data field =>
      simp only [hpath, List.mem_ite_nil_left, List.mem_singleton] at h h'
      rw [h.2, h'.2]
    | field name =>
      simp only [hpath, List.mem_ite_nil_left, List.mem_singleton] at h h'
      rw [h.2, h'.2]
  | call name args =>
    unfold ownViolations callViolations at h h'
    cases hresolve : Function.resolve name args.length with
    | ok f => simp [hresolve] at h
    | error fault =>
      simp only [hresolve, List.mem_singleton] at h h'
      rw [h, h']
  | literal value => cases h
  | comparison op left right => cases h
  | connective op left right => cases h
  | not operand => cases h

mutual

/-- The walk collects what is found at the nodes. -/
theorem occurrences_eq_flatMap (operation : Operation) (fields : List String) :
    (e : Expr) → e.occurrences operation fields = e.nodes.flatMap (ownViolations operation fields)
  | .literal value => by simp [occurrences, nodes, ownViolations]
  | .path name => by simp [occurrences, nodes, ownViolations]
  | .comparison op left right => by
    rw [occurrences, nodes, List.flatMap_cons, List.flatMap_append,
      occurrences_eq_flatMap operation fields left, occurrences_eq_flatMap operation fields right]
    rfl
  | .connective op left right => by
    rw [occurrences, nodes, List.flatMap_cons, List.flatMap_append,
      occurrences_eq_flatMap operation fields left, occurrences_eq_flatMap operation fields right]
    rfl
  | .not operand => by
    rw [occurrences, nodes, List.flatMap_cons, occurrences_eq_flatMap operation fields operand]
    rfl
  | .call name args => by
    rw [occurrences, nodes, List.flatMap_cons, argOccurrences_eq_flatMap operation fields args]
    rfl

theorem argOccurrences_eq_flatMap (operation : Operation) (fields : List String) :
    (args : List Expr) →
      argOccurrences operation fields args = (argNodes args).flatMap (ownViolations operation fields)
  | [] => rfl
  | arg :: args => by
    rw [argOccurrences, argNodes, List.flatMap_append, occurrences_eq_flatMap operation fields arg,
      argOccurrences_eq_flatMap operation fields args]

end

/-! ## What a report says -/

/-- A violation comes up before another one: some node has it, and neither that node nor any to its
left has the other. -/
def ComesBefore (operation : Operation) (fields : List String) (e : Expr) (v w : Violation) : Prop :=
  ∃ before n after, e.nodes = before ++ n :: after ∧ n.Exhibits operation fields v ∧
    ∀ m ∈ before ++ [n], ¬ m.Exhibits operation fields w

/-- A list reports what is wrong with a rule: each violation that some node has once, in the order
in which they come up. -/
structure Reports (operation : Operation) (fields : List String) (e : Expr)
    (report : List Violation) : Prop where
  nodup : report.Nodup
  mem_iff : ∀ v, v ∈ report ↔ ∃ n ∈ e.nodes, n.Exhibits operation fields v
  ordered : report.Pairwise (e.ComesBefore operation fields)

/-- What the validator returns is a report: every violation once, at its first occurrence, and
nothing else. -/
theorem reports_violations (operation : Operation) (fields : List String) (e : Expr) :
    e.Reports operation fields (e.violations operation fields) := by
  have hwalk := occurrences_eq_flatMap operation fields e
  -- That nothing is repeated, and the order, come from how repetitions are taken out; that the
  -- nodes are gone through from left to right comes from the walk.
  have hpairs := pairwise_eraseDups (e.occurrences operation fields)
  refine ⟨hpairs.imp ?_, ?_, hpairs.imp ?_⟩
  · rintro v w ⟨before, after, -, hnew⟩ rfl
    simp at hnew
  · intro v
    rw [violations, List.mem_eraseDups, hwalk, List.mem_flatMap]
    simp only [mem_ownViolations_iff]
  · rintro v w ⟨before, after, hsplit, hnew⟩
    rw [List.mem_append, List.mem_singleton, not_or] at hnew
    obtain ⟨front, n, rest, hnodes, hn, hfront⟩ := exists_mem_of_flatMap_eq (hwalk.symm.trans hsplit)
    refine ⟨front, n, rest, hnodes, mem_ownViolations_iff.mp hn, ?_⟩
    intro m hm hw
    rcases List.mem_append.mp hm with hm | hm
    · exact hnew.1 (hfront m hm w (mem_ownViolations_iff.mpr hw))
    · rw [List.mem_singleton.mp hm] at hw
      exact hnew.2 (hw.unique (mem_ownViolations_iff.mp hn))

end

end Expr

/-- **A check reports exactly what is wrong with a rule, in order.** Whatever the rule, the report
holds each violation of some node once, in the order in which the nodes come up with them. For two
operands it is the report of the left one and behind it what is new in that of the right one. A text
passes the check of a guard if it is empty, or a rule with an empty report. -/
theorem violations_report (operation : Operation) (fields : List String) :
    (∀ e : Expr, e.Reports operation fields (e.violations operation fields)) ∧
      (∀ op left right, (Expr.comparison op left right).violations operation fields =
        merged (left.violations operation fields) (right.violations operation fields)) ∧
      (∀ op left right, (Expr.connective op left right).violations operation fields =
        merged (left.violations operation fields) (right.violations operation fields)) ∧
      ∀ source : String, (Guard.ofText? (some source)).check operation fields = .ok () ↔
        source = "" ∨ ∃ e, parse source = .ok e ∧ e.violations operation fields = [] := by
  refine ⟨Expr.reports_violations operation fields, ?_, ?_, ?_⟩
  · intro op left right
    rw [Expr.violations, Expr.occurrences, eraseDups_append_eq]
    rfl
  · intro op left right
    rw [Expr.violations, Expr.occurrences, eraseDups_append_eq]
    rfl
  · intro source
    by_cases hempty : source = ""
    · simp [hempty, Guard.ofText?, Guard.check]
    · have hguard : Guard.ofText? (some source) = .rule source := if_neg hempty
      rw [hguard, Guard.check_rule_eq_ok_iff, or_iff_right hempty]

/-- A call of an unknown function comes before its argument, and the argument is reported once. -/
example : (Expr.connective .and (.call "missing" [.path "x"]) (.path "x")).violations .view [] =
    [.call (.unknownFunction "missing"), .unknownField "x"] := by decide

end AccessRules.Rule
