import AccessRules.Proofs.Rule.Paths
import AccessRules.Proofs.Sql.Steps

/-!
# What the text of a filter can be

The text of a filter is put together from pieces, and a rule may come from anyone. `Sentence` is the
language of what can come out, as a grammar of its own that knows nothing of conditions:

> `sentence_of_compile`: whatever a rule compiles to is a sentence over the names in the rule.
> `alike_compile`: the text is the same for every caller, and for every rule with other constants in
> the same places.

So no constant and nothing that is known about the caller gets into the text. A sentence begins with
a digit only if it begins with the condition that no row meets (`Sentence.opens`), which leaves the
condition that every row meets to the empty rule.
-/

namespace AccessRules

open Rule

namespace Sql

/-! ## The grammar -/

/-- A letter of the alphabet, of either case. -/
def IsLetter (c : Char) : Prop :=
  ('A' ≤ c ∧ c ≤ 'Z') ∨ ('a' ≤ c ∧ c ≤ 'z')

/-- A letter or underscore, and behind it any letters, underscores and digits. -/
def IsName (name : String) : Prop :=
  ∃ c cs, name.toList = c :: cs ∧ (IsLetter c ∨ c = '_') ∧
    ∀ d ∈ cs, IsLetter d ∨ d = '_' ∨ ('0' ≤ d ∧ d ≤ '9')

/-- The texts that a rule with the given paths can become. -/
inductive Sentence (paths : List String) : String → Prop
  | column {name : String} : IsName name → name ∈ paths → Sentence paths name
  | constant (number : Nat) : Sentence paths (":param_" ++ toString number)
  | auth {field : String} : field ∈ ["id", "email", "role", "account_id"] →
      Sentence paths (":auth_" ++ field)
  | data {field : String} : IsName field → "@request.data." ++ field ∈ paths →
      Sentence paths (":data_" ++ field)
  | not {s : String} : Sentence paths s → Sentence paths ("NOT (" ++ s ++ ")")
  | and {s t : String} : Sentence paths s → Sentence paths t →
      Sentence paths ("(" ++ s ++ " AND " ++ t ++ ")")
  | or {s t : String} : Sentence paths s → Sentence paths t →
      Sentence paths ("(" ++ s ++ " OR " ++ t ++ ")")
  | comparison {s sign t : String} : Sentence paths s →
      sign ∈ ["=", "<>", "<", ">", "<=", ">="] → Sentence paths t →
      Sentence paths (s ++ " " ++ sign ++ " " ++ t)
  | oneOf {s : String} (number : Nat) (numbers : List Nat) : Sentence paths s →
      Sentence paths (s ++ " IN (" ++
        String.intercalate ", " ((number :: numbers).map fun n => ":param_" ++ toString n) ++ ")")
  | never : Sentence paths "1=0"
  | anywhere {s t : String} : Sentence paths s → Sentence paths t →
      Sentence paths (s ++ " LIKE '%' || " ++ t ++ " || '%'")
  | atStart {s t : String} : Sentence paths s → Sentence paths t →
      Sentence paths (s ++ " LIKE " ++ t ++ " || '%'")
  | atEnd {s t : String} : Sentence paths s → Sentence paths t →
      Sentence paths (s ++ " LIKE '%' || " ++ t)
  | role {s : String} : Sentence paths s → Sentence paths (":auth_role = " ++ s)
  | owner : Sentence paths "owner_id = :auth_id"

variable {auth auth' : Auth} {b b' : Bindings} {c : Condition} {paths : List String}

/-! ## Names -/

/-- The letters of the library are the ASCII ones of the grammar. -/
theorem isAlpha_iff (c : Char) : c.isAlpha = true ↔ IsLetter c := by
  unfold Char.isAlpha Char.isUpper Char.isLower IsLetter
  simp only [Bool.or_eq_true, Bool.and_eq_true, decide_eq_true_eq, Char.le_def]

theorem isDigit_iff (c : Char) : c.isDigit = true ↔ '0' ≤ c ∧ c ≤ '9' := by
  unfold Char.isDigit
  simp only [Bool.and_eq_true, decide_eq_true_eq, Char.le_def]

/-- The check of names that compiling makes is the one of the grammar. -/
theorem isPlainName_iff {name : String} : isPlainName name = true ↔ IsName name := by
  -- A letter or a digit is what may follow, besides the underscore.
  have hfollows : ∀ d : Char, (d.isAlphanum = true ∨ d = '_') ↔
      IsLetter d ∨ d = '_' ∨ ('0' ≤ d ∧ d ≤ '9') := by
    intro d
    unfold Char.isAlphanum
    rw [Bool.or_eq_true, isAlpha_iff, isDigit_iff, or_right_comm, or_assoc]
  unfold isPlainName IsName
  cases name.toList with
  | nil => simp
  | cons c cs =>
    simp only [Bool.and_eq_true, Bool.or_eq_true, List.all_eq_true, decide_eq_true_eq, isAlpha_iff,
      hfollows]
    constructor
    · intro h
      exact ⟨c, cs, rfl, h⟩
    · intro h
      obtain ⟨_, _, heq, h⟩ := h
      cases heq
      exact h

/-! ## Compiling makes sentences -/

/-- A path becomes a name or a parameter of the grammar. -/
theorem sentence_of_compilePath {path : String} (hpath : path ∈ paths)
    (h : compilePath auth path b = .ok (c, b')) : Sentence paths c.text := by
  have hback := Variable.path_ofPath path
  rcases compilePath_eq_ok_iff.mp h with ⟨field, -, hfield, rfl, -⟩ | ⟨field, hof, hname, rfl, -⟩ |
    ⟨name, hof, hname, rfl, -⟩
  · exact .auth (List.contains_iff_mem.mp hfield)
  · rw [hof] at hback
    subst hback
    exact .data (isPlainName_iff.mp hname) hpath
  · rw [hof] at hback
    subst hback
    exact .column (isPlainName_iff.mp hname) hpath

/-- The right side of `in` adds constants only, and at least one if anything is written at all. -/
theorem sentence_of_compileMembership {operand : Condition} {container : Expr}
    (hoperand : Sentence paths operand.text)
    (h : compileMembership operand b container = .ok (c, b')) : Sentence paths c.text := by
  obtain ⟨items, -, ⟨-, rfl, -⟩ | ⟨hne, rfl, -⟩⟩ := compileMembership_eq_ok_iff.mp h
  · exact .never
  · cases items with
    | nil => exact absurd rfl hne
    | cons item items => exact .oneOf b.constants _ hoperand

/-- The text of a match in the pieces that the grammar knows. -/
theorem text_like (pattern : Match) (text part : Condition) :
    (Condition.like pattern text part).text =
      match pattern with
      | .anywhere => text.text ++ " LIKE '%' || " ++ part.text ++ " || '%'"
      | .atStart => text.text ++ " LIKE " ++ part.text ++ " || '%'"
      | .atEnd => text.text ++ " LIKE '%' || " ++ part.text := by
  cases pattern <;> simp [Condition.text, patternText, ← String.toList_inj]

/-- A match becomes a sentence of one of the three forms that its function has. -/
theorem sentence_like {pattern : Match} {text part : Condition} (htext : Sentence paths text.text)
    (hpart : Sentence paths part.text) : Sentence paths (Condition.like pattern text part).text := by
  rw [text_like]
  cases pattern with
  | anywhere => exact .anywhere htext hpart
  | atStart => exact .atStart htext hpart
  | atEnd => exact .atEnd htext hpart

/-- A call becomes a sentence if its arguments have. -/
theorem sentence_of_compileCall {f : Function} {args : List Condition}
    (hargs : ∀ d ∈ args, Sentence paths d.text)
    (h : compileCall auth f args b = .ok (c, b')) : Sentence paths c.text := by
  cases called_of_compileCall h with
  | like pattern text part => exact sentence_like (hargs text (by simp)) (hargs part (by simp))
  | role role => exact .role (hargs role (by simp))
  | owner => exact .owner

/-- A comparison is a sentence if both sides are; the grammar has all signs but the lookup, which is
a form of its own. -/
theorem sentence_comparison {op : Comparison} {left right : Condition} (hop : op ≠ .member)
    (hleft : Sentence paths left.text) (hright : Sentence paths right.text) :
    Sentence paths (Condition.comparison op left right).text := by
  refine .comparison hleft ?_ hright
  cases op <;> first | exact absurd rfl hop | simp [comparisonSign]

/-- The text of a connective in the pieces that the grammar knows. -/
theorem text_connective (op : Connective) (left right : Condition) :
    (Condition.connective op left right).text =
      match op with
      | .and => "(" ++ left.text ++ " AND " ++ right.text ++ ")"
      | .or => "(" ++ left.text ++ " OR " ++ right.text ++ ")" := by
  cases op <;> simp [Condition.text, connectiveWord, ← String.toList_inj]

theorem sentence_connective {op : Connective} {left right : Condition}
    (hleft : Sentence paths left.text) (hright : Sentence paths right.text) :
    Sentence paths (Condition.connective op left right).text := by
  rw [text_connective]
  cases op with
  | and => exact .and hleft hright
  | or => exact .or hleft hright

mutual

/-- **Whatever a rule compiles to is a sentence over the names in the rule.** -/
theorem sentence_of_compile : (e : Expr) → {b b' : Bindings} → {c : Condition} →
    e.paths ⊆ paths → compile auth b e = .ok (c, b') → Sentence paths c.text
  | .literal value, b, b', c, _, h => by
    obtain ⟨-, rfl, -⟩ := compile_literal_eq_ok_iff.mp h
    exact .constant b.constants
  | .path name, b, b', c, hpaths, h => by
    rw [Expr.paths] at hpaths
    exact sentence_of_compilePath (hpaths (List.mem_singleton_self name))
      (compile_path_eq_ok_iff.mp h)
  | .comparison op left right, b, b', c, hpaths, h => by
    rw [Expr.paths, List.append_subset] at hpaths
    by_cases hop : op = .member
    · rw [hop] at h
      obtain ⟨l, b₁, hleft, hmember⟩ := compile_member_eq_ok_iff.mp h
      exact sentence_of_compileMembership (sentence_of_compile left hpaths.1 hleft) hmember
    · obtain ⟨l, b₁, hleft, r, b₂, hright, rfl, -⟩ := (compile_comparison_eq_ok_iff hop).mp h
      exact sentence_comparison hop (sentence_of_compile left hpaths.1 hleft)
        (sentence_of_compile right hpaths.2 hright)
  | .connective op left right, b, b', c, hpaths, h => by
    rw [Expr.paths, List.append_subset] at hpaths
    obtain ⟨l, b₁, hleft, r, b₂, hright, rfl, -⟩ := compile_connective_eq_ok_iff.mp h
    exact sentence_connective (sentence_of_compile left hpaths.1 hleft)
      (sentence_of_compile right hpaths.2 hright)
  | .not operand, b, b', c, hpaths, h => by
    rw [Expr.paths] at hpaths
    obtain ⟨d, b₁, hoperand, rfl, -⟩ := compile_not_eq_ok_iff.mp h
    exact .not (sentence_of_compile operand hpaths hoperand)
  | .call name args, b, b', c, hpaths, h => by
    rw [Expr.paths] at hpaths
    obtain ⟨f, -, -, cs, b₁, hargs, hcall⟩ := compile_call_eq_ok_iff.mp h
    exact sentence_of_compileCall (sentence_of_compileArgs args hpaths hargs) hcall

theorem sentence_of_compileArgs : (args : List Expr) → {b b' : Bindings} →
    {cs : List Condition} → Expr.argPaths args ⊆ paths → compileArgs auth b args = .ok (cs, b') →
    ∀ d ∈ cs, Sentence paths d.text
  | [], b, b', cs, _, h => by
    rw [compileArgs] at h
    cases h
    exact List.forall_mem_nil _
  | arg :: args, b, b', cs, hpaths, h => by
    rw [Expr.argPaths, List.append_subset] at hpaths
    obtain ⟨d, b₁, harg, ds, b₂, hargs, rfl, -⟩ := compileArgs_cons_eq_ok_iff.mp h
    exact List.forall_mem_cons.mpr ⟨sentence_of_compile arg hpaths.1 harg,
      sentence_of_compileArgs args hpaths.2 hargs⟩

end

/-! ## The condition that every row meets -/

/-- A text that begins with something, and with a one only if it begins with the condition that no
row meets. -/
def Opens (s : String) : Prop :=
  ∃ c cs, s.toList = c :: cs ∧ (c = '1' → ['=', '0'] <+: cs)

/-- What a text begins with does not change by what follows. -/
theorem Opens.append {s : String} (h : Opens s) (t : String) : Opens (s ++ t) := by
  obtain ⟨c, cs, hs, hone⟩ := h
  refine ⟨c, cs ++ t.toList, ?_, fun hc => (hone hc).trans (List.prefix_append _ _)⟩
  rw [String.toList_append, hs, List.cons_append]

/-- A name begins with a letter or an underscore, so with no digit. -/
theorem IsName.opens {name : String} (h : IsName name) : Opens name := by
  obtain ⟨c, cs, hname, hc, -⟩ := h
  refine ⟨c, cs, hname, ?_⟩
  intro hone
  subst hone
  -- A name that opened with a one would open with a digit.
  have hdigit : ¬ (IsLetter '1' ∨ '1' = '_') := by
    unfold IsLetter
    decide
  exact absurd hc hdigit

/-- What stands first in a sentence is another sentence, a word of the grammar or a name. -/
theorem Sentence.opens {s : String} (h : Sentence paths s) : Opens s := by
  have hparen : Opens "(" := ⟨'(', [], rfl, by decide⟩
  induction h with
  | column hname _ => exact hname.opens
  | constant number => exact Opens.append ⟨':', _, rfl, by decide⟩ _
  | auth _ => exact Opens.append ⟨':', _, rfl, by decide⟩ _
  | data _ _ => exact Opens.append ⟨':', _, rfl, by decide⟩ _
  | not _ _ => exact (Opens.append ⟨'N', _, rfl, by decide⟩ _).append _
  | and _ _ _ _ => exact (((hparen.append _).append _).append _).append _
  | or _ _ _ _ => exact (((hparen.append _).append _).append _).append _
  | comparison _ _ _ ih _ => exact (((ih.append _).append _).append _).append _
  | oneOf _ _ _ ih => exact ((ih.append _).append _).append _
  | never => exact ⟨'1', _, rfl, fun _ => List.prefix_rfl⟩
  | anywhere _ _ ih _ => exact ((ih.append _).append _).append _
  | atStart _ _ ih _ => exact ((ih.append _).append _).append _
  | atEnd _ _ ih _ => exact (ih.append _).append _
  | role _ _ => exact Opens.append ⟨':', _, rfl, by decide⟩ _
  | owner => exact ⟨'o', _, rfl, by decide⟩

/-- No sentence says that all rows are met; the only one that begins with a one says that none is.
-/
theorem Sentence.ne_allowAll {s : String} (h : Sentence paths s) : s ≠ "1=1" := by
  intro hall
  obtain ⟨c, cs, hs, hone⟩ := h.opens
  rw [hall] at hs
  cases hs
  exact absurd (hone rfl) (by decide)

end Sql

/-! ## Rules without their constants -/

namespace Rule

/-- A constant with nothing in it: null, or a list of as many nulls. -/
def Literal.blank : Literal → Literal
  | .list items => .list (items.map fun _ => .null)
  | _ => .null

namespace Expr

mutual

/-- A rule with nothing in its constants. -/
def blank : Expr → Expr
  | .literal value => .literal value.blank
  | .path name => .path name
  | .comparison op left right => .comparison op (blank left) (blank right)
  | .connective op left right => .connective op (blank left) (blank right)
  | .not operand => .not (blank operand)
  | .call name args => .call name (blankArgs args)

/-- Some arguments with nothing in their constants. -/
def blankArgs : List Expr → List Expr
  | [] => []
  | arg :: args => blank arg :: blankArgs args

end

/-- A call keeps its number of arguments, so it resolves as before. -/
theorem length_blankArgs (args : List Expr) : (blankArgs args).length = args.length := by
  induction args with
  | nil => rw [blankArgs]
  | cons arg args ih => rw [blankArgs, List.length_cons, List.length_cons, ih]

end Expr

end Rule

namespace Sql

variable {auth auth' : Auth} {b b' : Bindings}

/-! ## What stays out of the text -/

/-- Two outcomes that differ in the values of parameters only. -/
def Alike {α : Type} (r r' : Compiled α) : Prop :=
  (∃ o, r = .error o ∧ r' = .error o) ∨
    ∃ a b b', r = .ok (a, b) ∧ r' = .ok (a, b') ∧ b.constants = b'.constants

theorem alike_error {α : Type} (o : Obstacle) : Alike (.error o : Compiled α) (.error o) :=
  .inl ⟨o, rfl, rfl⟩

theorem alike_ok {α : Type} (a : α) (h : b.constants = b'.constants) :
    Alike (.ok (a, b)) (.ok (a, b')) :=
  .inr ⟨a, b, b', rfl, rfl, h⟩

theorem Alike.symm {α : Type} {r r' : Compiled α} (h : Alike r r') : Alike r' r := by
  rcases h with ⟨o, rfl, rfl⟩ | ⟨a, b, b', rfl, rfl, h⟩
  · exact alike_error o
  · exact alike_ok a h.symm

theorem Alike.trans {α : Type} {r₁ r₂ r₃ : Compiled α} (h : Alike r₁ r₂) (h' : Alike r₂ r₃) :
    Alike r₁ r₃ := by
  rcases h with ⟨o, rfl, rfl⟩ | ⟨a, b, b', rfl, rfl, h⟩
  · rcases h' with ⟨o', heq, rfl⟩ | ⟨_, _, _, heq, _⟩
    · cases heq
      exact alike_error o
    · cases heq
  · rcases h' with ⟨_, heq, _⟩ | ⟨_, _, b'', heq, rfl, h'⟩
    · cases heq
    · cases heq
      exact alike_ok a (h.trans h')

/-- What is done to alike outcomes without looking at the values leaves them alike. -/
theorem Alike.map {α β : Type} {r r' : Compiled α} {f : α × Bindings → β × Bindings}
    (h : Alike r r')
    (hf : ∀ a b b', b.constants = b'.constants → Alike (.ok (f (a, b))) (.ok (f (a, b')))) :
    Alike (r.map f) (r'.map f) := by
  rcases h with ⟨o, rfl, rfl⟩ | ⟨a, b, b', rfl, rfl, h⟩
  · exact alike_error o
  · exact hf a b b' h

/-- What is done with parts that are alike differs in the values of parameters only if it does so for
each of them. -/
theorem Alike.andThen {α β : Type} {r r' : Compiled α} {next next' : α → Bindings → Compiled β}
    (h : Alike r r')
    (hnext : ∀ a b b', b.constants = b'.constants → Alike (next a b) (next' a b')) :
    Alike (r.andThen next) (r'.andThen next') := by
  rcases h with ⟨o, rfl, rfl⟩ | ⟨a, b, b', rfl, rfl, h⟩
  · exact alike_error o
  · exact hnext a b b' h

theorem alike_compileAuth {field : String} (h : b.constants = b'.constants) :
    Alike (compileAuth auth field b) (compileAuth auth' field b') := by
  unfold compileAuth
  split
  · exact alike_ok _ h
  · exact alike_error _

theorem alike_compilePath {path : String} (h : b.constants = b'.constants) :
    Alike (compilePath auth path b) (compilePath auth' path b') := by
  unfold compilePath
  cases Variable.ofPath path with
  | auth field => exact alike_compileAuth h
  | data field =>
    dsimp only
    split
    · exact alike_ok _ h
    · exact alike_error _
  | field name =>
    dsimp only
    split
    · exact alike_ok _ h
    · exact alike_error _

/-- The items of a list are numbered whatever they are. -/
theorem compileItems_blank : (items : List Literal) → {b b' : Bindings} →
    b.constants = b'.constants →
    (compileItems b items).1 = (compileItems b' (items.map fun _ => .null)).1 ∧
      (compileItems b items).2.constants =
        (compileItems b' (items.map fun _ => .null)).2.constants
  | [], b, b', h => ⟨rfl, h⟩
  | item :: items, b, b', h => by
    have hnext : (b.bindConstant item.toValue).constants =
        (b'.bindConstant Literal.null.toValue).constants := congrArg (· + 1) h
    obtain ⟨hnumbers, hcount⟩ := compileItems_blank items hnext
    refine ⟨?_, hcount⟩
    rw [List.map_cons, compileItems, compileItems]
    dsimp only
    rw [h, hnumbers]

/-- A lookup depends on how many items the list has, and not on what they are. -/
theorem alike_compileMembership {operand : Condition} (container : Expr)
    (h : b.constants = b'.constants) :
    Alike (compileMembership operand b container)
      (compileMembership operand b' container.blank) := by
  cases container with
  | literal value =>
    rw [Expr.blank]
    cases value with
    | list items =>
      cases items with
      | nil => exact alike_ok _ h
      | cons item items =>
        -- The numbers are given by the count alone, whatever the items are.
        obtain ⟨hnumbers, hcount⟩ := compileItems_blank (item :: items) h
        rw [compileMembership, Literal.blank, List.map_cons, compileMembership]
        dsimp only
        rw [hnumbers]
        exact alike_ok _ hcount
    | _ => exact alike_error _
  | _ =>
    rw [Expr.blank]
    exact alike_error _

/-- Whoever the caller is, the call becomes the same part or the same obstacle. -/
theorem alike_compileCall {f : Function} {args : List Condition}
    (h : b.constants = b'.constants) :
    Alike (compileCall auth f args b) (compileCall auth' f args b') := by
  unfold compileCall
  split
  · exact alike_ok _ h
  · exact alike_ok _ h
  · exact alike_ok _ h
  · exact (alike_compileAuth h).map fun _ _ _ => alike_ok _
  · exact (alike_compileAuth h).map fun _ _ _ => alike_ok _
  · exact (alike_compileAuth h).map fun _ _ _ => alike_ok _
  · exact alike_error _

mutual

/-- **The constants of a rule and what is known about the caller stay out of the condition.** -/
theorem alike_compile : (e : Expr) → {b b' : Bindings} → b.constants = b'.constants →
    Alike (compile auth b e) (compile auth' b' e.blank)
  | .literal value, b, b', h => by
    rw [Expr.blank]
    cases value with
    | list items =>
      rw [Literal.blank, compile, compile]
      exact alike_error _
    | _ =>
      rw [Literal.blank, compile, compile, h]
      · exact alike_ok _ (congrArg (· + 1) h)
      all_goals simp
  | .path name, b, b', h => by
    rw [Expr.blank, compile_path, compile_path]
    exact alike_compilePath h
  | .comparison op left right, b, b', h => by
    rw [Expr.blank]
    by_cases hop : op = .member
    · rw [hop, compile_member, compile_member]
      refine (alike_compile left h).andThen ?_
      intro l b₁ b₁' h₁
      exact alike_compileMembership right h₁
    · rw [compile_comparison hop, compile_comparison hop]
      refine (alike_compile left h).andThen ?_
      intro l b₁ b₁' h₁
      refine (alike_compile right h₁).andThen ?_
      intro r b₂ b₂' h₂
      exact alike_ok _ h₂
  | .connective op left right, b, b', h => by
    rw [Expr.blank, compile_connective, compile_connective]
    refine (alike_compile left h).andThen ?_
    intro l b₁ b₁' h₁
    refine (alike_compile right h₁).andThen ?_
    intro r b₂ b₂' h₂
    exact alike_ok _ h₂
  | .not operand, b, b', h => by
    rw [Expr.blank, compile_not, compile_not]
    refine (alike_compile operand h).andThen ?_
    intro c b₁ b₁' h₁
    exact alike_ok _ h₁
  | .call name args, b, b', h => by
    rw [Expr.blank, compile_call, compile_call, Expr.length_blankArgs]
    -- The name and the number of arguments decide, and neither is a constant.
    cases Function.resolve name args.length with
    | error fault => exact alike_error _
    | ok f =>
      dsimp only
      split
      · refine (alike_compileArgs args h).andThen ?_
        intro cs b₁ b₁' h₁
        exact alike_compileCall h₁
      · exact alike_error _

theorem alike_compileArgs : (args : List Expr) → {b b' : Bindings} →
    b.constants = b'.constants →
    Alike (compileArgs auth b args) (compileArgs auth' b' (Expr.blankArgs args))
  | [], b, b', h => by
    rw [Expr.blankArgs, compileArgs, compileArgs]
    exact alike_ok _ h
  | arg :: args, b, b', h => by
    rw [Expr.blankArgs, compileArgs_cons, compileArgs_cons]
    refine (alike_compile arg h).andThen ?_
    intro c b₁ b₁' h₁
    refine (alike_compileArgs args h₁).andThen ?_
    intro cs b₂ b₂' h₂
    exact alike_ok _ h₂

end

/-- Rules that differ in their constants only compile alike, for any two callers. -/
theorem alike_of_blank_eq {e e' : Expr} (hblank : e'.blank = e.blank) :
    Alike (compile auth .empty e) (compile auth' .empty e') := by
  -- Both compile as the one rule that has its constants blanked out.
  have hblanked : Alike (compile auth .empty e) (compile auth .empty e.blank) := alike_compile e rfl
  have hother : Alike (compile auth' .empty e') (compile auth .empty e'.blank) :=
    alike_compile e' rfl
  rw [hblank] at hother
  exact hblanked.trans hother.symm

/-- Rules that differ in their constants only have the same text, for any two callers. -/
theorem ofExpr_eq_of_blank {e e' : Expr} {filter : Filter} (hblank : e'.blank = e.blank)
    (h : Filter.ofExpr auth e = .ok filter) :
    ∃ params, Filter.ofExpr auth' e' = .ok ⟨filter.sql, params⟩ := by
  obtain ⟨c, b, hcompile, hsql, -⟩ := exists_compile_of_ofExpr h
  have halike : Alike (compile auth .empty e) (compile auth' .empty e') := alike_of_blank_eq hblank
  rcases halike with ⟨o, he, -⟩ | ⟨c', _, b', he, he', -⟩
  · rw [hcompile] at he
    cases he
  · rw [hcompile] at he
    cases he
    exact ⟨b'.params, by rw [Filter.ofExpr, he', hsql]⟩

/-- The text of the filter of a rule that is read is a sentence. -/
theorem sentence_of_ofExpr {e : Expr} {filter : Filter} (h : Filter.ofExpr auth e = .ok filter) :
    Sentence e.paths filter.sql := by
  obtain ⟨c, b, hcompile, hsql, -⟩ := exists_compile_of_ofExpr h
  rw [hsql]
  exact sentence_of_compile e (List.Subset.refl _) hcompile

/-- The condition that every row meets is what the empty rule becomes. -/
theorem sql_eq_allowAll_iff {rule : Option String} :
    (∃ filter, Filter.ofGuard auth (.ofText? rule) = .ok filter ∧ filter.sql = "1=1") ↔
      rule = some "" := by
  constructor
  · intro h
    obtain ⟨filter, hfilter, hall⟩ := h
    cases rule with
    | none =>
      cases hfilter
      exact absurd hall (by decide)
    | some source =>
      by_cases hempty : source = ""
      · rw [hempty]
      · rw [Guard.ofText?, if_neg hempty, Filter.ofGuard] at hfilter
        cases hparse : parse source with
        | error e =>
          rw [hparse] at hfilter
          cases hfilter
        | ok e =>
          rw [hparse] at hfilter
          -- What a rule becomes is a sentence, and none says that all rows are met.
          exact absurd hall (sentence_of_ofExpr hfilter).ne_allowAll
  · intro h
    subst h
    exact ⟨.allowAll, rfl, rfl⟩

/-- **Nothing but names and words gets into the text of a filter.** What a rule becomes is a sentence
over the names in the rule, the same one for every caller and whatever its constants are. The
condition that every row meets comes from the empty rule and from no other. -/
theorem filter_text_closed (auth : Auth) :
    (∀ e filter, Filter.ofExpr auth e = .ok filter →
      Sentence e.paths filter.sql ∧
        ∀ auth' e', e'.blank = e.blank →
          ∃ params, Filter.ofExpr auth' e' = .ok ⟨filter.sql, params⟩) ∧
      ∀ rule, (∃ filter, Filter.ofGuard auth (.ofText? rule) = .ok filter ∧ filter.sql = "1=1") ↔
        rule = some "" := by
  refine ⟨?_, fun rule => sql_eq_allowAll_iff⟩
  intro e filter h
  exact ⟨sentence_of_ofExpr h, fun auth' e' hblank => ofExpr_eq_of_blank hblank h⟩

/-- A rule with SQL in a constant, and the same rule with other constants. -/
theorem filter_text_closed_quoted :
    let e : Expr := .connective .or
      (.comparison .eq (.path "title") (.literal (.string "' OR 1=1")))
      (.call "@has_role" [.path "@request.data.role"])
    let sql := "(title = :param_0 OR :auth_role = :data_role)"
    Filter.ofExpr .empty e = .ok ⟨sql, [("auth_role", .string ""), ("data_role", .null),
        ("param_0", .string "' OR 1=1")]⟩ ∧
      Sentence ["title", "@request.data.role"] sql ∧
      ∃ params, Filter.ofExpr ⟨[("role", .string ") OR (1=1")]⟩ (.connective .or
        (.comparison .eq (.path "title") (.literal (.int 7)))
        (.call "@has_role" [.path "@request.data.role"])) = .ok ⟨sql, params⟩ := by
  intro e sql
  have hfilter : Filter.ofExpr .empty e = .ok ⟨sql, [("auth_role", .string ""),
      ("data_role", .null), ("param_0", .string "' OR 1=1")]⟩ := rfl
  obtain ⟨hsentence, hother⟩ := (filter_text_closed .empty).1 e _ hfilter
  exact ⟨hfilter, hsentence, hother _ _ rfl⟩

end Sql

end AccessRules
