import AccessRules.Proofs.Rule.Grammar.Outcome

/-!
# What each reader does

One statement for each of the readers of a rule says when it succeeds, what it gives and what it
leaves, in terms of the readers that it calls. `Reads r a rest` is a success without the proof that
`rest` is shorter, so these statements can be chained without carrying lengths along; what is left
of soundness and completeness are inductions that never open a reader again.
-/

namespace AccessRules.Rule.Grammar

variable {α β : Type}

/-- `Reads r a rest`: the reading `r` gives `a` and leaves `rest`. -/
def Reads {p : List Token → Prop} (r : Except Stop (α × { rest : List Token // p rest })) (a : α)
    (rest : List Token) : Prop :=
  ∃ h, r = .ok (a, ⟨rest, h⟩)

@[simp] theorem reads_ok {p : List Token → Prop} {a b : α} {rest rest' : List Token}
    {h : p rest} :
    Reads (.ok (a, ⟨rest, h⟩) : Except Stop (α × { rest : List Token // p rest })) b rest' ↔
      b = a ∧ rest' = rest := by
  constructor
  · intro h
    obtain ⟨_, heq⟩ := h
    cases heq
    exact ⟨rfl, rfl⟩
  · intro h
    obtain ⟨rfl, rfl⟩ := h
    exact ⟨h, rfl⟩

@[simp] theorem not_reads_error {p : List Token → Prop} {stop : Stop} {a : α} {rest : List Token} :
    ¬Reads (.error stop : Except Stop (α × { rest : List Token // p rest })) a rest := by
  intro h
  obtain ⟨_, heq⟩ := h
  cases heq

/-- What a reading leaves meets the bound that the reader promises. -/
theorem Reads.bound {p : List Token → Prop}
    {r : Except Stop (α × { rest : List Token // p rest })} {a : α} {rest : List Token}
    (h : Reads r a rest) : p rest := by
  obtain ⟨hp, -⟩ := h
  exact hp

/-- A reading gives what its outcome does. -/
theorem outcome_eq_ok_iff {p : List Token → Prop}
    {r : Except Stop (α × { rest : List Token // p rest })} {a : α} {rest : List Token} :
    outcome r = .ok (a, rest) ↔ Reads r a rest := by
  rcases r with stop | ⟨b, mid, hmid⟩
  · simp
  · simp [eq_comm]

/-! ## Readers put together -/

theorem part_eq_iff {a b : α} {rest rest' : List Token} :
    (.ok (a, rest) : Outcome α) = .ok (b, rest') ↔ b = a ∧ rest' = rest := by
  simp [eq_comm]

theorem andThen_eq_ok_iff {o : Outcome α} {next : α → List Token → Outcome β}
    {r : β × List Token} :
    o.andThen next = .ok r ↔ ∃ a rest, o = .ok (a, rest) ∧ next a rest = .ok r := by
  rcases o with stop | ⟨a, rest⟩
  · simp
  · constructor
    · intro h
      exact ⟨a, rest, rfl, h⟩
    · intro h
      obtain ⟨_, _, heq, h⟩ := h
      cases heq
      exact h

/-- Reading a part and then making something of it. -/
theorem andThen_part_eq_ok_iff {o : Outcome α} {f : α → β} {b : β} {rest : List Token} :
    (o.andThen fun a mid => .ok (f a, mid)) = .ok (b, rest) ↔
      ∃ a, b = f a ∧ o = .ok (a, rest) := by
  simp only [andThen_eq_ok_iff, part_eq_iff]
  constructor
  · intro h
    obtain ⟨a, _, ho, rfl, rfl⟩ := h
    exact ⟨a, rfl, ho⟩
  · intro h
    obtain ⟨a, rfl, ho⟩ := h
    exact ⟨a, rest, ho, rfl, rfl⟩

/-- A nested reader succeeds below the limit where the reader inside does. -/
theorem nested_eq_ok_iff {d : Nat} {tokens : List Token} {inner : Outcome α}
    {r : α × List Token} : nested d tokens inner = .ok r ↔ d < maxDepth ∧ inner = .ok r := by
  unfold nested
  by_cases hdepth : d < maxDepth <;> simp [hdepth]

theorem orEmpty_eq_ok_iff (close : TokenKind) (hclose : close ≠ .eof) {tokens rest : List Token}
    {first : Outcome (List α)} {all : List α} :
    orEmpty close tokens first = .ok (all, rest) ↔
      (∃ t, tokens = t :: rest ∧ t.kind = close ∧ all = []) ∨
      (headKind tokens ≠ close ∧ first = .ok (all, rest)) := by
  unfold orEmpty
  -- The two cases exclude each other by the kind in front.
  by_cases hhead : headKind tokens = close
  · obtain ⟨t, htokens, ht⟩ := eq_cons_of_headKind hhead hclose
    rw [if_pos hhead, part_eq_iff]
    constructor
    · intro h
      obtain ⟨rfl, rfl⟩ := h
      exact Or.inl ⟨t, htokens, ht, rfl⟩
    · intro h
      rcases h with ⟨_, rfl, -, rfl⟩ | ⟨hne, -⟩
      · exact ⟨rfl, rfl⟩
      · exact absurd hhead hne
  · rw [if_neg hhead]
    constructor
    · intro h
      exact Or.inr ⟨hhead, h⟩
    · intro h
      rcases h with ⟨_, rfl, ht, -⟩ | ⟨-, h⟩
      · exact absurd ht hhead
      · exact h

/-- Behind a member stands a comma with more members, or the closing token. -/
theorem listed_eq_ok_iff (close : TokenKind) (hclose : close ≠ .eof) (hcomma : close ≠ .comma)
    {tokens : List Token} {before all : List α} {more : List Token → Outcome (List α)}
    {rest : List Token} :
    listed close before more tokens = .ok (all, rest) ↔
      ∃ u us, tokens = u :: us ∧
        ((u.kind = .comma ∧ more us = .ok (all, rest)) ∨
          (u.kind = close ∧ all = before ∧ rest = us)) := by
  cases tokens with
  | nil => simp [listed, headKind, hclose.symm]
  | cons u us =>
    rw [listed, headKind, List.tail_cons]
    -- A comma is looked for first; the closing token is another one, so the two cases do not meet.
    by_cases hu : u.kind = .comma
    · rw [if_pos hu]
      constructor
      · intro h
        exact ⟨u, us, rfl, Or.inl ⟨hu, h⟩⟩
      · intro h
        obtain ⟨_, _, heq, hcase⟩ := h
        cases heq
        rcases hcase with ⟨-, h⟩ | ⟨hu', -⟩
        · exact h
        · exact absurd (hu'.symm.trans hu) hcomma
    · rw [if_neg hu]
      by_cases hu' : u.kind = close
      · rw [if_pos hu', part_eq_iff]
        constructor
        · intro h
          exact ⟨u, us, rfl, Or.inr ⟨hu', h⟩⟩
        · intro h
          obtain ⟨_, _, heq, hcase⟩ := h
          cases heq
          rcases hcase with ⟨hcomma', -⟩ | ⟨-, h⟩
          · exact absurd hcomma' hu
          · exact h
      · rw [if_neg hu']
        simp [hu, hu', and_assoc]

/-! ## One token -/

theorem reads_readToken {kind : TokenKind} {tokens rest : List Token} {u : Unit} :
    Reads (readToken kind tokens) u rest ↔ ∃ t, tokens = t :: rest ∧ t.kind = kind := by
  cases tokens with
  | nil => simp [readToken]
  | cons t ts =>
    rw [readToken]
    by_cases hkind : t.kind = kind
    · rw [if_pos hkind]
      simp only [reads_ok, true_and, List.cons.injEq]
      constructor
      · intro heq
        subst heq
        exact ⟨t, ⟨rfl, rfl⟩, hkind⟩
      · intro h
        obtain ⟨_, ⟨rfl, rfl⟩, -⟩ := h
        rfl
    · rw [if_neg hkind]
      simp only [not_reads_error, List.cons.injEq, false_iff]
      intro h
      obtain ⟨_, ⟨rfl, -⟩, hk⟩ := h
      exact hkind hk

/-! ## Lists -/

theorem reads_readList {d : Nat} {tokens rest : List Token} {items : List Literal} :
    Reads (readList d tokens) items rest ↔
      (∃ t, tokens = t :: rest ∧ t.kind = .rightBracket ∧ items = []) ∨
      (headKind tokens ≠ .rightBracket ∧ Reads (readItems d [] tokens) items rest) := by
  rw [← outcome_eq_ok_iff, outcome_readList, orEmpty_eq_ok_iff .rightBracket (by simp),
    outcome_eq_ok_iff]

theorem reads_readItem {d : Nat} {t : Token} {ts rest : List Token} {v : Literal} :
    Reads (readItem d t ts) v rest ↔
      (t.kind = .leftBracket ∧ d < maxDepth ∧
        ∃ items, v = .list items ∧ Reads (readList (d + 1) ts) items rest) ∨
      (Constant t.kind v ∧ rest = ts) := by
  rw [← outcome_eq_ok_iff, ← frontItem, frontItem_eq, headKind, List.tail_cons]
  by_cases hopen : t.kind = .leftBracket
  · -- A bracket stands for no constant, so the two cases do not meet.
    have hconstant : ¬Constant TokenKind.leftBracket v := by
      intro h
      cases h
    rw [if_pos hopen, nested_eq_ok_iff, andThen_part_eq_ok_iff]
    simp only [outcome_eq_ok_iff, hopen, hconstant, true_and, false_and, or_false]
  · rw [if_neg hopen, ← literal?_eq_some_iff]
    cases t.kind.literal? <;> simp [hopen, eq_comm]

/-- Items are one item and then a comma with more of them, or the bracket that closes the list. -/
theorem reads_readItems {d : Nat} {tokens rest : List Token} {before all : List Literal} :
    Reads (readItems d before tokens) all rest ↔
      ∃ t ts v u us, tokens = t :: ts ∧ Reads (readItem d t ts) v (u :: us) ∧
        ((u.kind = .comma ∧ Reads (readItems d (v :: before) us) all rest) ∨
          (u.kind = .rightBracket ∧ all = (v :: before).reverse ∧ rest = us)) := by
  rw [← outcome_eq_ok_iff, outcome_readItems, andThen_eq_ok_iff]
  simp only [listed_eq_ok_iff .rightBracket (by simp) (by simp), outcome_eq_ok_iff]
  constructor
  · intro h
    obtain ⟨v, _, hitem, u, us, rfl, hcase⟩ := h
    cases tokens with
    | nil => cases hitem
    | cons t ts => exact ⟨t, ts, v, u, us, rfl, outcome_eq_ok_iff.mp hitem, hcase⟩
  · intro h
    obtain ⟨t, ts, v, u, us, rfl, hitem, hcase⟩ := h
    exact ⟨v, u :: us, outcome_eq_ok_iff.mpr hitem, u, us, rfl, hcase⟩

/-! ## Chains -/

theorem reads_readChain {op : Connective} {d : Nat} {tokens rest : List Token} {e : Expr} :
    Reads (readChain op d tokens) e rest ↔
      ∃ left mid, Reads (readLink op d tokens) left mid ∧
        Reads (extendChain op d left mid) e rest := by
  rw [← outcome_eq_ok_iff, outcome_readChain, andThen_eq_ok_iff]
  simp only [outcome_eq_ok_iff]

/-- A chain ends in front of anything but its own connective, and goes on behind that one level
deeper. -/
theorem reads_extendChain {op : Connective} {d : Nat} {left e : Expr}
    {tokens rest : List Token} :
    Reads (extendChain op d left tokens) e rest ↔
      (headKind tokens ≠ .connective op ∧ e = left ∧ rest = tokens) ∨
      (∃ t ts right mid, tokens = t :: ts ∧ t.kind = .connective op ∧ d < maxDepth ∧
        Reads (readLink op (d + 1) ts) right mid ∧
        Reads (extendChain op (d + 1) (.connective op left right) mid) e rest) := by
  rw [← outcome_eq_ok_iff, outcome_extendChain]
  -- The kind in front decides which of the two it is; the other one is refuted by that kind.
  by_cases hop : headKind tokens = .connective op
  · obtain ⟨t, htokens, ht⟩ := eq_cons_of_headKind hop (by simp)
    rw [if_pos hop, nested_eq_ok_iff, andThen_eq_ok_iff]
    simp only [outcome_eq_ok_iff]
    constructor
    · intro h
      obtain ⟨hdepth, right, mid, hlink, hmore⟩ := h
      exact Or.inr ⟨t, tokens.tail, right, mid, htokens, ht, hdepth, hlink, hmore⟩
    · intro h
      rcases h with ⟨hne, -⟩ | ⟨_, _, right, mid, rfl, -, hdepth, hlink, hmore⟩
      · exact absurd hop hne
      · exact ⟨hdepth, right, mid, hlink, hmore⟩
  · rw [if_neg hop, part_eq_iff]
    constructor
    · intro h
      exact Or.inl ⟨hop, h⟩
    · intro h
      rcases h with ⟨-, h⟩ | ⟨_, _, _, _, rfl, ht, -⟩
      · exact h
      · exact absurd ht hop

/-- The members of an "or" are chains of "and". -/
theorem reads_readLink_or {d : Nat} {tokens rest : List Token} {e : Expr} :
    Reads (readLink .or d tokens) e rest ↔ Reads (readChain .and d tokens) e rest := by
  rw [readLink]

theorem reads_readLink_and {d : Nat} {tokens rest : List Token} {e : Expr} :
    Reads (readLink .and d tokens) e rest ↔ Reads (readNot d tokens) e rest := by
  rw [readLink]

/-! ## Comparisons -/

/-- A negation is a not, one level deeper, before another one, or else a comparison. -/
theorem reads_readNot {d : Nat} {tokens rest : List Token} {e : Expr} :
    Reads (readNot d tokens) e rest ↔
      (headKind tokens ≠ .not ∧ Reads (readComparison d tokens) e rest) ∨
      (∃ t ts operand, tokens = t :: ts ∧ t.kind = .not ∧ d < maxDepth ∧ e = .not operand ∧
        Reads (readNot (d + 1) ts) operand rest) := by
  rw [← outcome_eq_ok_iff, outcome_readNot]
  by_cases hnot : headKind tokens = .not
  · obtain ⟨t, htokens, ht⟩ := eq_cons_of_headKind hnot (by simp)
    rw [if_pos hnot, nested_eq_ok_iff, andThen_part_eq_ok_iff]
    simp only [outcome_eq_ok_iff]
    constructor
    · intro h
      obtain ⟨hdepth, operand, rfl, hoperand⟩ := h
      exact Or.inr ⟨t, tokens.tail, operand, htokens, ht, hdepth, rfl, hoperand⟩
    · intro h
      rcases h with ⟨hne, -⟩ | ⟨_, _, operand, rfl, -, hdepth, rfl, hoperand⟩
      · exact absurd hnot hne
      · exact ⟨hdepth, operand, rfl, hoperand⟩
  · rw [if_neg hnot, outcome_eq_ok_iff]
    constructor
    · intro h
      exact Or.inl ⟨hnot, h⟩
    · intro h
      rcases h with ⟨-, h⟩ | ⟨_, _, _, rfl, ht, -⟩
      · exact h
      · exact absurd ht hnot

/-- A comparison is an operand that no sign follows, or two operands around a sign with none behind
them. -/
theorem reads_readComparison {d : Nat} {tokens rest : List Token} {e : Expr} :
    Reads (readComparison d tokens) e rest ↔
      ∃ left mid, Reads (readOperand d tokens) left mid ∧
        (((∀ op, headKind mid ≠ .comparison op) ∧ e = left ∧ rest = mid) ∨
          (∃ t ts op right, mid = t :: ts ∧ t.kind = .comparison op ∧
            Reads (readOperand d ts) right rest ∧ (∀ op, headKind rest ≠ .comparison op) ∧
            e = .comparison op left right)) := by
  rw [← outcome_eq_ok_iff, outcome_readComparison, andThen_eq_ok_iff]
  refine exists_congr fun left => exists_congr fun mid => and_congr outcome_eq_ok_iff ?_
  cases hop : (headKind mid).comparison? with
  | none =>
    have hnone := comparison?_eq_none_iff.mp hop
    rw [part_eq_iff]
    constructor
    · intro h
      exact Or.inl ⟨hnone, h⟩
    · intro h
      rcases h with ⟨-, h⟩ | ⟨_, _, op, _, rfl, ht, -⟩
      · exact h
      · exact absurd ht (hnone op)
  | some op =>
    have hsign := comparison?_eq_some_iff.mp hop
    obtain ⟨t, hmid, ht⟩ := eq_cons_of_headKind hsign (by simp)
    simp only [andThen_eq_ok_iff, outcome_eq_ok_iff]
    constructor
    · intro h
      obtain ⟨right, last, hright, hlast⟩ := h
      cases hchained : (headKind last).comparison? with
      | some _ =>
        -- a comparison cannot go on with a second sign
        rw [hchained] at hlast
        cases hlast
      | none =>
        rw [hchained] at hlast
        obtain ⟨rfl, rfl⟩ := part_eq_iff.mp hlast
        exact Or.inr ⟨t, mid.tail, op, right, hmid, ht, hright,
          comparison?_eq_none_iff.mp hchained, rfl⟩
    · intro h
      rcases h with ⟨hne, -⟩ | ⟨_, _, op', right, rfl, ht', hright, hchained, rfl⟩
      · exact absurd hsign (hne op)
      · cases hsign.symm.trans ht'
        refine ⟨right, rest, hright, ?_⟩
        rw [comparison?_eq_none_iff.mpr hchained]

/-! ## Operands -/

/-- An operand in parentheses, read from behind the opening one. -/
theorem reads_readOperand_parens {d : Nat} {t : Token} {ts rest : List Token} {e : Expr}
    (ht : t.kind = .leftParen) :
    Reads (readOperand d (t :: ts)) e rest ↔
      d < maxDepth ∧
        ∃ u, Reads (readChain .or (d + 1) ts) e (u :: rest) ∧ u.kind = .rightParen := by
  rw [← outcome_eq_ok_iff, outcome_readOperand, headKind, ht, List.tail_cons]
  simp only [nested_eq_ok_iff, andThen_eq_ok_iff, part_eq_iff, outcome_eq_ok_iff, reads_readToken]
  refine and_congr_right fun _ => ?_
  constructor
  · intro h
    obtain ⟨_, _, hinner, _, _, ⟨u, rfl, hu⟩, rfl, rfl⟩ := h
    exact ⟨u, hinner, hu⟩
  · intro h
    obtain ⟨u, hinner, hu⟩ := h
    exact ⟨e, u :: rest, hinner, (), rest, ⟨u, rfl, hu⟩, rfl, rfl⟩

/-- A list is read in its brackets, one level deeper. -/
theorem reads_readOperand_list {d : Nat} {t : Token} {ts rest : List Token} {e : Expr}
    (ht : t.kind = .leftBracket) :
    Reads (readOperand d (t :: ts)) e rest ↔
      d < maxDepth ∧ ∃ items, Reads (readList (d + 1) ts) items rest ∧
        e = .literal (.list items) := by
  rw [← outcome_eq_ok_iff, outcome_readOperand, headKind, ht, List.tail_cons]
  simp only [nested_eq_ok_iff, andThen_part_eq_ok_iff, outcome_eq_ok_iff, and_comm]

/-- A name is a path, unless a parenthesis makes it a call, whose arguments stand one level deeper.
-/
theorem reads_readOperand_name {d : Nat} {t : Token} {ts rest : List Token} {e : Expr}
    {name : String} (ht : t.kind = .name name) :
    Reads (readOperand d (t :: ts)) e rest ↔
      (headKind ts ≠ .leftParen ∧ e = .path name ∧ rest = ts) ∨
      (∃ u us args, ts = u :: us ∧ u.kind = .leftParen ∧ d < maxDepth ∧
        Reads (readArgs (d + 1) us) args rest ∧ e = .call name args) := by
  rw [← outcome_eq_ok_iff, outcome_readOperand, headKind, ht, List.tail_cons]
  dsimp only
  by_cases hopen : headKind ts = .leftParen
  · -- Once a parenthesis opens, the name can only be that of a call.
    obtain ⟨u, hts, hu⟩ := eq_cons_of_headKind hopen (by simp)
    rw [if_pos hopen, nested_eq_ok_iff, andThen_part_eq_ok_iff]
    simp only [outcome_eq_ok_iff]
    constructor
    · intro h
      obtain ⟨hdepth, args, rfl, hargs⟩ := h
      exact Or.inr ⟨u, ts.tail, args, hts, hu, hdepth, hargs, rfl⟩
    · intro h
      rcases h with ⟨hne, -⟩ | ⟨_, _, args, rfl, -, hdepth, hargs, rfl⟩
      · exact absurd hopen hne
      · exact ⟨hdepth, args, rfl, hargs⟩
  · rw [if_neg hopen, part_eq_iff]
    constructor
    · intro h
      exact Or.inl ⟨hopen, h⟩
    · intro h
      rcases h with ⟨-, h⟩ | ⟨_, _, _, rfl, hu, -⟩
      · exact h
      · exact absurd hu hopen

/-- An operand that starts with any other token is a constant. -/
theorem reads_readOperand_constant {d : Nat} {t : Token} {ts rest : List Token} {e : Expr}
    (hparen : t.kind ≠ .leftParen) (hbracket : t.kind ≠ .leftBracket)
    (hname : ∀ name, t.kind ≠ .name name) :
    Reads (readOperand d (t :: ts)) e rest ↔
      ∃ v, Constant t.kind v ∧ e = .literal v ∧ rest = ts := by
  -- The reader asks for a parenthesis, a bracket and a name first, and none of them is there.
  have hconst : Reads (readOperand d (t :: ts)) e rest ↔
      ∃ v, t.kind.literal? = some v ∧ e = .literal v ∧ rest = ts := by
    rw [readOperand]
    split
    · next h => exact absurd h hparen
    · next h => exact absurd h hbracket
    · next h => exact absurd h (hname _)
    · cases hlit : t.kind.literal? with
      | none => simp
      | some v => simp
  simpa only [literal?_eq_some_iff] using hconst

/-- No operand is made of nothing. -/
theorem not_reads_readOperand_nil {d : Nat} {rest : List Token} {e : Expr} :
    ¬Reads (readOperand d []) e rest := by
  rw [readOperand]
  exact not_reads_error

/-! ## Arguments -/

theorem reads_readArgs {d : Nat} {tokens rest : List Token} {args : List Expr} :
    Reads (readArgs d tokens) args rest ↔
      (∃ t, tokens = t :: rest ∧ t.kind = .rightParen ∧ args = []) ∨
      (headKind tokens ≠ .rightParen ∧ Reads (readMoreArgs d [] tokens) args rest) := by
  rw [← outcome_eq_ok_iff, outcome_readArgs, orEmpty_eq_ok_iff .rightParen (by simp),
    outcome_eq_ok_iff]

theorem reads_readMoreArgs {d : Nat} {tokens rest : List Token} {before all : List Expr} :
    Reads (readMoreArgs d before tokens) all rest ↔
      ∃ arg u us, Reads (readChain .or d tokens) arg (u :: us) ∧
        ((u.kind = .comma ∧ Reads (readMoreArgs d (arg :: before) us) all rest) ∨
          (u.kind = .rightParen ∧ all = (arg :: before).reverse ∧ rest = us)) := by
  rw [← outcome_eq_ok_iff, outcome_readMoreArgs, andThen_eq_ok_iff]
  simp only [listed_eq_ok_iff .rightParen (by simp) (by simp), outcome_eq_ok_iff]
  constructor
  · intro h
    obtain ⟨arg, _, harg, u, us, rfl, hcase⟩ := h
    exact ⟨arg, u, us, harg, hcase⟩
  · intro h
    obtain ⟨arg, u, us, harg, hcase⟩ := h
    exact ⟨arg, u :: us, harg, u, us, rfl, hcase⟩

end AccessRules.Rule.Grammar
