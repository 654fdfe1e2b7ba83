import AccessRules.Proofs.Sql.Lexis
import AccessRules.Proofs.Sql.Meaning
import AccessRules.Proofs.Value.Symmetry

/-!
# Reading the text of a filter

The text of a filter is read here the way a database reads it, with no knowledge of the condition
that it was written from. What stands in parentheses is read first; on one level `OR` binds weaker
than `AND`, `AND` weaker than `NOT`, and `NOT` weaker than a comparison and `IN`. Keywords are
recognized in upper and lower case.

> `read_text`: a condition that says a clause has a text that is read as this clause.
> `value_of_says`: the value of such a condition is the truth of the clause.

`Says` picks out the conditions that are read back: comparisons and lists of columns and parameters,
joined in any way. A comparison of comparisons is not among them.
-/

namespace AccessRules.Sql

open Rule

/-! ## What a text says -/

/-- What stands in a comparison. -/
inductive Operand
  | column (name : String)
  | placeholder (name : String)
  | constant (value : Value)

/-- A condition as it is read from a text. -/
inductive Clause
  | comparison (op : Comparison) (left right : Operand)
  | oneOf (operand : Operand) (items : List Operand)
  | not (c : Clause)
  | connective (op : Connective) (left right : Clause)

/-- The value of an operand in a row, with values put in for the placeholders. -/
def Operand.value (row placeholder : String → Value) : Operand → Value
  | .column name => row name
  | .placeholder name => placeholder name
  | .constant value => value

/-- Whether a comparison holds; incomparable values are in no order. -/
def compares (op : Comparison) (left right : Value) : Bool :=
  match op with
  | .eq => left.same right
  | .ne => !left.same right
  | .lt => left.compare? right == some .lt
  | .gt => left.compare? right == some .gt
  | .le => left.compare? right == some .lt || left.compare? right == some .eq
  | .ge => left.compare? right == some .gt || left.compare? right == some .eq
  | .member => false

/-- Whether a clause is true in a row. -/
def Clause.truth (row placeholder : String → Value) : Clause → Bool
  | .comparison op left right =>
    compares op (left.value row placeholder) (right.value row placeholder)
  | .oneOf operand items =>
    items.any fun item => (operand.value row placeholder).same (item.value row placeholder)
  | .not c => !c.truth row placeholder
  | .connective .and left right => left.truth row placeholder && right.truth row placeholder
  | .connective .or left right => left.truth row placeholder || right.truth row placeholder

/-! ## Reading one level -/

/-- The words that are no names of columns. -/
def keywords : List String :=
  ["AND", "OR", "NOT", "IN", "LIKE", "NULL", "TRUE", "FALSE"]

/-- Whether a word is a keyword, in whatever case it is written. -/
def isKeyword (word : String) : Bool :=
  keywords.contains word.toUpper

/-- What stands on one level of a text: a token, or what was read between parentheses. -/
inductive Item
  | token (t : Token)
  | clause (c : Clause)
  | list (items : List Operand)

/-- Whether an item is a keyword. -/
def Item.isWord (keyword : String) : Item → Bool
  | .token (.word word) => word.toUpper == keyword
  | _ => false

/-- Reads an operand. -/
def readOperand : Item → Option Operand
  | .token (.word word) =>
    if isKeyword word then
      match word.toUpper with
      | "NULL" => some (.constant .null)
      | "TRUE" => some (.constant (.bool true))
      | "FALSE" => some (.constant (.bool false))
      | _ => none
    else some (.column word)
  | .token (.placeholder name) => some (.placeholder name)
  | .token (.number n) => some (.constant (.int (Int64.ofNat n)))
  | _ => none

/-- Reads operands with commas between them. -/
def readOperands : List Item → Option (List Operand)
  | [x] => (readOperand x).map fun operand => [operand]
  | x :: .token .comma :: items =>
    match readOperand x, readOperands items with
    | some operand, some operands => some (operand :: operands)
    | _, _ => none
  | _ => none

/-- Reads a comparison, a membership or a clause in parentheses. -/
def readComparison : List Item → Option Clause
  | [.clause c] => some c
  | [x, .token (.sign op), y] =>
    match readOperand x, readOperand y with
    | some left, some right => some (.comparison op left right)
    | _, _ => none
  | [x, word, .list items] =>
    if word.isWord "IN" then (readOperand x).map fun operand => .oneOf operand items else none
  | _ => none

/-- Reads a comparison behind any number of `NOT`. -/
def readNegation : List Item → Option Clause
  | [] => none
  | item :: items =>
    if item.isWord "NOT" then (readNegation items).map .not else readComparison (item :: items)

/-- Reads links with a keyword between them, grouped to the left. -/
def readLinks (op : Connective) (keyword : String) (link : List Item → Option Clause)
    (items : List Item) : Option Clause :=
  match (items.splitOnP (Item.isWord keyword)).mapM link with
  | some (c :: cs) => some (cs.foldl (.connective op) c)
  | _ => none

/-- Reads a whole level: links of `OR` made of links of `AND`. -/
def readLevel (items : List Item) : Option Clause :=
  readLinks .or "OR" (readLinks .and "AND" readNegation) items

/-! ## Reading a text -/

/-- Whether the last of the items before is `IN`; the items are given with the last one first. -/
def behindIn : List Item → Bool
  | [] => false
  | item :: _ => item.isWord "IN"

/-- Reads what stands between parentheses: a list behind `IN`, and elsewhere a clause. -/
def readParens (before inside : List Item) : Option Item :=
  if behindIn before then (readOperands inside).map .list
  else (readLevel inside).map .clause

/-- Takes one token. The levels that are open are kept with the innermost first, and on each level
the last item first. -/
def step (levels : List (List Item)) (t : Token) : Option (List (List Item)) :=
  match t, levels with
  | .leftParen, levels => some ([] :: levels)
  | .rightParen, inside :: before :: levels =>
    (readParens before inside.reverse).map fun item => (item :: before) :: levels
  | .rightParen, _ => none
  | t, items :: levels => some ((.token t :: items) :: levels)
  | _, [] => none

/-- Takes tokens one by one. -/
def run : List (List Item) → List Token → Option (List (List Item))
  | levels, [] => some levels
  | levels, t :: ts => (step levels t).bind fun levels => run levels ts

/-- Reads tokens, of which every parenthesis must be closed. -/
def readTokens (ts : List Token) : Option Clause :=
  match run [[]] ts with
  | some [items] => readLevel items.reverse
  | _ => none

/-- Reads a text. -/
def read (text : String) : Option Clause :=
  (lex text).bind readTokens

/-! ## Conditions that say a clause -/

/-- `Names c operand`: a column that is no keyword, or a parameter. -/
inductive Names : Condition → Operand → Prop
  | column {name : String} : isKeyword name = false → Names (.column name) (.column name)
  | parameter (p : Parameter) : Names (.parameter p) (.placeholder p.name)

/-- The placeholder of a constant. -/
def constantOperand (n : Nat) : Operand :=
  .placeholder (Parameter.constant n).name

/-- `Says c k`: the condition is made of comparisons and memberships, and `k` is the clause that it
is. -/
inductive Says : Condition → Clause → Prop
  | comparison {op : Comparison} {left right : Condition} {l r : Operand} : op ≠ .member →
      Names left l → Names right r → Says (.comparison op left right) (.comparison op l r)
  | oneOf {c : Condition} {operand : Operand} {ns : List Nat} : ns ≠ [] → Names c operand →
      Says (.oneOf c ns) (.oneOf operand (ns.map constantOperand))
  | never : Says .never (.comparison .eq (.constant (.int 1)) (.constant (.int 0)))
  | not {c : Condition} {k : Clause} : Says c k → Says (.not c) (.not k)
  | connective {left right : Condition} {l r : Clause} (op : Connective) : Says left l →
      Says right r → Says (.connective op left right) (.connective op l r)

/-! ## The truth of what a condition says -/

/-- A database and a rule agree on every sign of comparison; incomparable values are in no order for
either. -/
theorem compares_eq_holds {op : Comparison} (h : op ≠ .member) (left right : Value) :
    compares op left right = op.holds left right := by
  cases op with
  | eq => rfl
  | ne => rfl
  | member => exact absurd rfl h
  | _ =>
    simp only [compares, Comparison.holds]
    cases left.compare? right with
    | none => rfl
    | some order => cases order <;> rfl

section

variable {env : Env} {placeholder : String → Value}

/-- A condition that names an operand has the value of the operand. -/
theorem value_of_names (hparameter : ∀ p, env.parameter p = placeholder p.name) {c : Condition}
    {operand : Operand} (h : Names c operand) :
    c.value env = operand.value env.column placeholder := by
  cases h with
  | column _ => rfl
  | parameter p => exact hparameter p

/-- **The value of a condition is the truth of the clause that it says.** -/
theorem value_of_says (hparameter : ∀ p, env.parameter p = placeholder p.name) {c : Condition}
    {k : Clause} (h : Says c k) : c.value env = .bool (k.truth env.column placeholder) := by
  induction h with
  | comparison hop hleft hright =>
    rw [Condition.value, Clause.truth, compares_eq_holds hop, value_of_names hparameter hleft,
      value_of_names hparameter hright]
  | oneOf _ hoperand =>
    rw [Condition.value, Clause.truth, value_of_names hparameter hoperand, List.any_map]
    congr 2
    funext n
    rw [Function.comp_apply, constantOperand, Operand.value, hparameter, Value.same_comm]
  | never => rfl
  | not _ ih =>
    rw [Condition.value, ih]
    rfl
  | connective op _ _ ihl ihr =>
    rw [Condition.value, ihl, ihr]
    cases op <;> rfl

end

/-! ## A level of a condition -/

/-- What a condition looks like on its own level: its items are read as the clause, and none of them
is a word that could tear the level apart next to other links. -/
structure Level (items : List Item) (k : Clause) : Prop where
  negation : readNegation items = some k
  whole : ∀ keyword ∈ ["AND", "OR"], ∀ item ∈ items, item.isWord keyword = false

/-- A row without the keyword is one link. -/
theorem readLinks_one {op : Connective} {keyword : String} {link : List Item → Option Clause}
    {items : List Item} {k : Clause} (h : ∀ item ∈ items, item.isWord keyword = false)
    (hlink : link items = some k) : readLinks op keyword link items = some k := by
  unfold readLinks
  rw [List.splitOnP_eq_singleton h]
  simp [hlink]

/-- A keyword between two rows that do not have it parts them. -/
theorem readLinks_two {op : Connective} {keyword : String} {link : List Item → Option Clause}
    {left right : List Item} {word : Item} {l r : Clause} (hword : word.isWord keyword = true)
    (hl : ∀ item ∈ left, item.isWord keyword = false)
    (hr : ∀ item ∈ right, item.isWord keyword = false)
    (hleft : link left = some l) (hright : link right = some r) :
    readLinks op keyword link (left ++ word :: right) = some (.connective op l r) := by
  unfold readLinks
  rw [List.splitOnP_append_cons_of_forall_mem hl word hword, List.splitOnP_eq_singleton hr]
  simp [hleft, hright]

/-- A level is read as its clause, because no word parts it. -/
theorem Level.readLevel {items : List Item} {k : Clause} (h : Level items k) :
    readLevel items = some k :=
  readLinks_one (h.whole "OR" (by decide)) (readLinks_one (h.whole "AND" (by decide)) h.negation)

/-- Two levels with the word of a connective between them. -/
theorem Level.readLevel_connective {left right : List Item} {l r : Clause} (op : Connective)
    (hl : Level left l) (hr : Level right r) :
    Sql.readLevel (left ++ .token (.word (connectiveWord op)) :: right) =
      some (.connective op l r) := by
  have hleft := hl.whole "OR" (by decide)
  have hright := hr.whole "OR" (by decide)
  -- The text is parted at `OR` first; a row with `AND` has none at its level.
  cases op with
  | or =>
    exact readLinks_two (by decide +kernel) hleft hright
      (readLinks_one (hl.whole "AND" (by decide)) hl.negation)
      (readLinks_one (hr.whole "AND" (by decide)) hr.negation)
  | and =>
    refine readLinks_one ?_ (readLinks_two (by decide +kernel) (hl.whole "AND" (by decide))
      (hr.whole "AND" (by decide)) hl.negation hr.negation)
    intro item hitem
    rcases List.mem_append.mp hitem with hitem | hitem
    · exact hleft item hitem
    · rcases List.mem_cons.mp hitem with rfl | hitem
      · decide +kernel
      · exact hright item hitem

/-- A clause in parentheses is a level of its own. -/
theorem level_clause (k : Clause) : Level [.clause k] k where
  negation := rfl
  whole keyword _ item hitem := by
    rw [List.mem_singleton.mp hitem]
    rfl

/-- A word that is no keyword is no particular keyword. -/
theorem isWord_eq_false {name keyword : String} (h : isKeyword name = false)
    (hkeyword : keyword ∈ keywords) : (Item.token (.word name)).isWord keyword = false := by
  refine beq_false_of_ne ?_
  intro heq
  subst heq
  rw [isKeyword, List.contains_iff_mem.mpr hkeyword] at h
  cases h

/-- A word that is no keyword is a column. -/
theorem readOperand_column {name : String} (h : isKeyword name = false) :
    readOperand (.token (.word name)) = some (.column name) := by
  simp [readOperand, h]

/-- A column that is no keyword and a parameter are a single token each, which no keyword is. -/
theorem exists_token_of_names {c : Condition} {operand : Operand} (h : Names c operand) :
    ∃ t, c.tokens = [t] ∧ t ≠ .leftParen ∧ t ≠ .rightParen ∧
      readOperand (.token t) = some operand ∧ (Item.token t).isWord "NOT" = false ∧
      ∀ keyword ∈ ["AND", "OR"], (Item.token t).isWord keyword = false := by
  cases h with
  | @column name hname =>
    have hsub : ∀ keyword ∈ ["AND", "OR"], keyword ∈ keywords := by decide
    exact ⟨.word name, rfl, nofun, nofun, readOperand_column hname,
      isWord_eq_false hname (by decide),
      fun keyword hkeyword => isWord_eq_false hname (hsub keyword hkeyword)⟩
  | parameter p => exact ⟨.placeholder p.name, rfl, nofun, nofun, rfl, rfl, fun _ _ => rfl⟩

/-! ## Running through a condition -/

/-- Tokens that are no parentheses are put on the open level one by one. -/
theorem run_append_of_no_parens {ts : List Token} (h : .leftParen ∉ ts ∧ .rightParen ∉ ts)
    (items : List Item) (levels : List (List Item)) (rest : List Token) :
    run (items :: levels) (ts ++ rest) =
      run (((ts.map .token).reverse ++ items) :: levels) rest := by
  induction ts generalizing items with
  | nil => rfl
  | cons t ts ih =>
    obtain ⟨hleft, hright⟩ := h
    rw [List.mem_cons, not_or] at hleft hright
    have hstep : step (items :: levels) t = some ((.token t :: items) :: levels) := by
      cases t <;> first | rfl | exact absurd rfl hleft.1 | exact absurd rfl hright.1
    rw [List.cons_append, run, hstep, Option.bind_some, ih ⟨hleft.2, hright.2⟩]
    simp

/-- `Leaves ts items`: wherever a clause may stand, the tokens leave the items on the open level. -/
def Leaves (ts : List Token) (items : List Item) : Prop :=
  ∀ before levels rest, behindIn before = false →
    run (before :: levels) (ts ++ rest) = run ((items.reverse ++ before) :: levels) rest

/-- Tokens without parentheses all stand on one level. -/
theorem leaves_of_no_parens {ts : List Token} (h : .leftParen ∉ ts ∧ .rightParen ∉ ts) :
    Leaves ts (ts.map .token) := by
  intro before levels rest _
  exact run_append_of_no_parens h before levels rest

/-- The tokens of a level in parentheses leave what is read between them. -/
theorem run_parens {ts : List Token} {items before : List Item} {item : Item}
    (h : ∀ levels rest, run ([] :: levels) (ts ++ rest) = run (items.reverse :: levels) rest)
    (hread : readParens before items = some item) (levels : List (List Item))
    (rest : List Token) :
    run (before :: levels) (.leftParen :: ts ++ .rightParen :: rest) =
      run ((item :: before) :: levels) rest := by
  have hopen : step (before :: levels) .leftParen = some ([] :: before :: levels) := rfl
  have hclose : step (items.reverse :: before :: levels) .rightParen =
      some ((item :: before) :: levels) := by
    show (readParens before items.reverse.reverse).map _ = _
    rw [List.reverse_reverse, hread]
    rfl
  rw [List.cons_append, run, hopen, Option.bind_some, h, run, hclose, Option.bind_some]

/-- A clause in parentheses, wherever one may stand. -/
theorem run_clause {ts : List Token} {items before : List Item} {k : Clause}
    (h : Leaves ts items) (hlevel : readLevel items = some k)
    (hbefore : behindIn before = false) (levels : List (List Item))
    (rest : List Token) :
    run (before :: levels) (.leftParen :: ts ++ .rightParen :: rest) =
      run ((.clause k :: before) :: levels) rest := by
  have hrun : ∀ levels rest,
      run ([] :: levels) (ts ++ rest) = run (items.reverse :: levels) rest := by
    intro levels rest
    rw [h [] levels rest rfl, List.append_nil]
  have hread : readParens before items = some (.clause k) := by
    rw [readParens, hbefore, if_neg (by simp), hlevel]
    rfl
  exact run_parens hrun hread levels rest

theorem no_parens_itemTokens : (ns : List Nat) →
    .leftParen ∉ itemTokens ns ∧ .rightParen ∉ itemTokens ns
  | [] => by simp [itemTokens]
  | [n] => by simp [itemTokens]
  | n :: m :: ns => by
    have hrest := no_parens_itemTokens (m :: ns)
    simpa [itemTokens] using hrest

theorem readOperands_itemTokens : (ns : List Nat) → ns ≠ [] →
    readOperands ((itemTokens ns).map .token) = some (ns.map constantOperand)
  | [], h => absurd rfl h
  | [n], _ => rfl
  | n :: m :: ns, _ => by
    have hrest := readOperands_itemTokens (m :: ns) (List.cons_ne_nil _ _)
    rw [itemTokens, List.map_cons, List.map_cons, readOperands, hrest]
    · rfl
    · exact List.cons_ne_nil _ _

/-- A list of constants in parentheses behind `IN`. -/
theorem run_list {ns : List Nat} (hns : ns ≠ []) {before : List Item}
    (hbefore : behindIn before = true) (levels : List (List Item))
    (rest : List Token) :
    run (before :: levels) (.leftParen :: itemTokens ns ++ .rightParen :: rest) =
      run ((.list (ns.map constantOperand) :: before) :: levels) rest := by
  have hrun : ∀ levels rest, run ([] :: levels) (itemTokens ns ++ rest) =
      run (((itemTokens ns).map .token).reverse :: levels) rest := by
    intro levels rest
    rw [run_append_of_no_parens (no_parens_itemTokens ns), List.append_nil]
  have hread : readParens before ((itemTokens ns).map .token) =
      some (.list (ns.map constantOperand)) := by
    rw [readParens, hbefore, if_pos rfl, readOperands_itemTokens ns hns]
    rfl
  exact run_parens hrun hread levels rest

/-- The keywords inside a level are not those between levels. -/
theorem isWord_in_and_not : ∀ keyword ∈ ["AND", "OR"],
    (Item.token (.word "IN")).isWord keyword = false ∧
      (Item.token (.word "NOT")).isWord keyword = false := by
  decide +kernel

/-! ## Levels of conditions, form by form -/

/-- A comparison of two operands is a level: three items, none of them a connective. -/
theorem exists_level_comparison {op : Comparison} {left right : Condition} {l r : Operand}
    (hop : op ≠ .member) (hleft : Names left l) (hright : Names right r) :
    ∃ items, Level items (.comparison op l r) ∧
      Leaves (Condition.comparison op left right).tokens items := by
  obtain ⟨t, ht, htl, htr, htread, htnot, htword⟩ := exists_token_of_names hleft
  obtain ⟨u, hu, hul, hur, huread, -, huword⟩ := exists_token_of_names hright
  have hsign : signToken op = .sign op := by
    cases op with
    | member => exact absurd rfl hop
    | _ => rfl
  refine ⟨[.token t, .token (.sign op), .token u], ⟨?_, ?_⟩, ?_⟩
  · rw [readNegation, htnot, if_neg (by simp)]
    simp [readComparison, htread, huread]
  · intro keyword hkeyword
    simp only [List.forall_mem_cons, htword keyword hkeyword, huword keyword hkeyword]
    simp [Item.isWord]
  · rw [Condition.tokens, ht, hu, hsign]
    refine leaves_of_no_parens ⟨?_, ?_⟩
    · simp [htl.symm, hul.symm]
    · simp [htr.symm, hur.symm]

/-- A lookup in a list is a level, in which the list in its parentheses is one item. -/
theorem exists_level_oneOf {c : Condition} {operand : Operand} {ns : List Nat} (hns : ns ≠ [])
    (hoperand : Names c operand) :
    ∃ items, Level items (.oneOf operand (ns.map constantOperand)) ∧
      Leaves (c.oneOf ns).tokens items := by
  obtain ⟨t, ht, htl, htr, htread, htnot, htword⟩ := exists_token_of_names hoperand
  have hin : (Item.token (.word "IN")).isWord "IN" = true := by decide +kernel
  refine ⟨[.token t, .token (.word "IN"), .list (ns.map constantOperand)], ⟨?_, ?_⟩, ?_⟩
  · rw [readNegation, htnot, if_neg (by simp)]
    simp [readComparison, htread, hin]
  · intro keyword hkeyword
    simp only [List.forall_mem_cons, htword keyword hkeyword,
      (isWord_in_and_not keyword hkeyword).1]
    simp [Item.isWord]
  · intro before levels rest _
    have hno : .leftParen ∉ [t, .word "IN"] ∧ .rightParen ∉ [t, .word "IN"] :=
      ⟨by simp [htl.symm], by simp [htr.symm]⟩
    have htokens : (c.oneOf ns).tokens ++ rest =
        [t, .word "IN"] ++ (.leftParen :: itemTokens ns ++ .rightParen :: rest) := by
      rw [Condition.tokens, ht]
      simp
    -- The parenthesis opens a list because `IN` is what stands before it.
    have hbehind : behindIn ([.token (.word "IN"), .token t] ++ before) = true := hin
    rw [htokens, run_append_of_no_parens hno]
    exact run_list hns hbehind levels rest

theorem exists_level_never :
    ∃ items, Level items (.comparison .eq (.constant (.int 1)) (.constant (.int 0))) ∧
      Leaves Condition.never.tokens items := by
  refine ⟨_, ⟨rfl, ?_⟩, leaves_of_no_parens (by decide)⟩
  intro keyword _ item hitem
  rw [Condition.tokens] at hitem
  obtain ⟨t, ht, rfl⟩ := List.mem_map.mp hitem
  revert t
  simp [Item.isWord]

/-- A negation is a level, because its operand stands in parentheses. -/
theorem exists_level_not {c : Condition} {items : List Item} {k : Clause} (hlevel : Level items k)
    (hleaves : Leaves c.tokens items) :
    ∃ items, Level items (.not k) ∧ Leaves c.not.tokens items := by
  have hnot : (Item.token (.word "NOT")).isWord "NOT" = true := by decide +kernel
  have hin : (Item.token (.word "NOT")).isWord "IN" = false := by decide +kernel
  refine ⟨[.token (.word "NOT"), .clause k], ⟨?_, ?_⟩, ?_⟩
  · rw [readNegation, hnot, if_pos rfl, (level_clause k).negation]
    rfl
  · intro keyword hkeyword
    simp only [List.forall_mem_cons, (isWord_in_and_not keyword hkeyword).2]
    simp [Item.isWord]
  · intro before levels rest _
    have hno : .leftParen ∉ [Token.word "NOT"] ∧ .rightParen ∉ [Token.word "NOT"] := by decide
    have htokens : c.not.tokens ++ rest =
        [.word "NOT"] ++ (.leftParen :: c.tokens ++ .rightParen :: rest) := by
      rw [Condition.tokens]
      simp
    -- Behind `NOT` the parenthesis opens a clause and no list.
    have hbehind : behindIn ([.token (.word "NOT")] ++ before) = false := hin
    rw [htokens, run_append_of_no_parens hno]
    exact run_clause hleaves hlevel.readLevel hbehind levels rest

/-- A connective is a level, because it stands in parentheses with all that it connects. -/
theorem exists_level_connective {left right : Condition} {itemsLeft itemsRight : List Item}
    {l r : Clause} (op : Connective) (hleft : Level itemsLeft l) (hright : Level itemsRight r)
    (hleavesLeft : Leaves left.tokens itemsLeft) (hleavesRight : Leaves right.tokens itemsRight) :
    ∃ items, Level items (.connective op l r) ∧
      Leaves (Condition.connective op left right).tokens items := by
  refine ⟨[.clause (.connective op l r)], level_clause _, ?_⟩
  have hbehind : ∀ before, behindIn (.token (.word (connectiveWord op)) :: before) = false := by
    intro before
    show (Item.token (.word (connectiveWord op))).isWord "IN" = false
    cases op <;> decide +kernel
  -- The three pieces between the parentheses are left on one level, one behind the other.
  have hinside : Leaves (left.tokens ++ .word (connectiveWord op) :: right.tokens)
      (itemsLeft ++ .token (.word (connectiveWord op)) :: itemsRight) := by
    intro before levels rest hbefore
    rw [List.append_assoc, hleavesLeft before levels _ hbefore, List.cons_append, run]
    show run _ (right.tokens ++ rest) = _
    rw [hleavesRight _ levels rest (hbehind _)]
    simp
  intro before levels rest hbefore
  have htokens : (Condition.connective op left right).tokens ++ rest =
      .leftParen :: (left.tokens ++ .word (connectiveWord op) :: right.tokens) ++
        .rightParen :: rest := by
    rw [Condition.tokens]
    simp
  rw [htokens]
  exact run_clause hinside (hleft.readLevel_connective op hright) hbefore levels rest

/-- The tokens of a condition leave a level that is read as the clause it says. -/
theorem exists_level_of_says {c : Condition} {k : Clause} (h : Says c k) :
    ∃ items, Level items k ∧ Leaves c.tokens items := by
  induction h with
  | comparison hop hleft hright => exact exists_level_comparison hop hleft hright
  | oneOf hns hoperand => exact exists_level_oneOf hns hoperand
  | never => exact exists_level_never
  | not _ ih =>
    obtain ⟨items, hlevel, hleaves⟩ := ih
    exact exists_level_not hlevel hleaves
  | connective op _ _ ihl ihr =>
    obtain ⟨itemsLeft, hleft, hleavesLeft⟩ := ihl
    obtain ⟨itemsRight, hright, hleavesRight⟩ := ihr
    exact exists_level_connective op hleft hright hleavesLeft hleavesRight

/-- **The text of a condition is read as the clause that it says.** -/
theorem read_text {c : Condition} {k : Clause} (h : Says c k) (hplain : c.Plain) :
    read c.text = some k := by
  obtain ⟨items, hlevel, hleaves⟩ := exists_level_of_says h
  have hrun := hleaves [] [] [] rfl
  rw [List.append_nil, List.append_nil] at hrun
  rw [read, lex_text hplain, Option.bind_some, readTokens, hrun]
  show readLevel items.reverse.reverse = some k
  rw [List.reverse_reverse, hlevel.readLevel]

end AccessRules.Sql
