import AccessRules.Proofs.Rule.Grammar.Exact

/-!
# What nests too deeply is refused as such

A row of tokens that derives a rule can still be refused, when its nesting exceeds `maxDepth`. Then
nothing but the nesting is what is wrong with it:

> `ofTokens_of_chain`: tokens that derive a rule are read as it while the nesting is within `maxDepth`,
> and refused because of the nesting when it is beyond.

A reader goes through the parts of a derivation from left to right. The parts before the first one
that is too deep are read as in the completeness proof, and the first one that is too deep ends the
reading, so each lemma here splits on whether the part before was within the limit.
-/

namespace AccessRules.Rule.Grammar

variable {α β : Type}

/-- The reading stopped because of the nesting. -/
def TooDeep (r : Except Stop α) : Prop :=
  ∃ rest, r = .error ⟨rest, .tooDeep⟩

/-- A reading is refused as too deep when its outcome is. -/
theorem tooDeep_outcome {p : List Token → Prop}
    {r : Except Stop (α × { rest : List Token // p rest })} : TooDeep (outcome r) ↔ TooDeep r := by
  rcases r with stop | ⟨a, rest⟩ <;> simp [TooDeep]

theorem TooDeep.outcome {p : List Token → Prop}
    {r : Except Stop (α × { rest : List Token // p rest })} (h : TooDeep r) :
    TooDeep (outcome r) :=
  tooDeep_outcome.mpr h

/-- Nothing is read on behind a refusal. -/
theorem TooDeep.andThen {o : Outcome α} {next : α → List Token → Outcome β} (h : TooDeep o) :
    TooDeep (o.andThen next) := by
  obtain ⟨rest, rfl⟩ := h
  exact ⟨rest, rfl⟩

/-- A refusal behind a part that is read. -/
theorem Reads.andThen_tooDeep {p : List Token → Prop}
    {r : Except Stop (α × { rest : List Token // p rest })} {a : α} {rest : List Token}
    {next : α → List Token → Outcome β} (hread : Reads r a rest) (h : TooDeep (next a rest)) :
    TooDeep ((outcome r).andThen next) := by
  rw [outcome_eq_ok_iff.mpr hread]
  exact h

/-- A reader that goes one level deeper refuses at the limit itself, and before it where the level
does. -/
theorem tooDeep_nested {d : Nat} {tokens : List Token} {inner : Outcome α}
    (h : d < maxDepth → TooDeep inner) : TooDeep (nested d tokens inner) := by
  unfold nested
  by_cases hdepth : d < maxDepth
  · rw [if_pos hdepth]
    exact h hdepth
  · rw [if_neg hdepth]
    exact ⟨tokens, rfl⟩

/-! ## Readers pass the refusal on -/

/-- A list with too deep items is too deep, since it is not closed at once. -/
theorem tooDeep_readList {d : Nat} {tokens : List Token} (hhead : headKind tokens ≠ .rightBracket)
    (h : TooDeep (readItems d [] tokens)) : TooDeep (readList d tokens) := by
  rw [← tooDeep_outcome, outcome_readList, orEmpty, if_neg hhead]
  exact h.outcome

theorem tooDeep_readItem {d : Nat} {t : Token} {ts : List Token} (ht : t.kind = .leftBracket)
    (h : d < maxDepth → TooDeep (readList (d + 1) ts)) : TooDeep (readItem d t ts) := by
  rw [← tooDeep_outcome, ← frontItem, frontItem_eq, headKind, if_pos ht]
  refine tooDeep_nested ?_
  intro hdepth
  exact (h hdepth).outcome.andThen

/-- The first item that is too deep ends the list. -/
theorem tooDeep_readItems_first {d : Nat} {t : Token} {ts : List Token} {before : List Literal}
    (h : TooDeep (readItem d t ts)) : TooDeep (readItems d before (t :: ts)) := by
  rw [← tooDeep_outcome, outcome_readItems]
  exact h.outcome.andThen

theorem tooDeep_readItems_more {d : Nat} {t u : Token} {ts us : List Token}
    {before : List Literal} {v : Literal} (hitem : Reads (readItem d t ts) v (u :: us))
    (hu : u.kind = .comma) (h : TooDeep (readItems d (v :: before) us)) :
    TooDeep (readItems d before (t :: ts)) := by
  rw [← tooDeep_outcome, outcome_readItems]
  refine hitem.andThen_tooDeep ?_
  rw [listed, headKind, if_pos hu]
  exact h.outcome

/-- A group is refused for the limit or for what is in it. -/
theorem tooDeep_readOperand_parens {d : Nat} {t : Token} {ts : List Token}
    (ht : t.kind = .leftParen) (h : d < maxDepth → TooDeep (readChain .or (d + 1) ts)) :
    TooDeep (readOperand d (t :: ts)) := by
  rw [← tooDeep_outcome, outcome_readOperand, headKind, ht]
  refine tooDeep_nested ?_
  intro hdepth
  exact (h hdepth).outcome.andThen

theorem tooDeep_readOperand_list {d : Nat} {t : Token} {ts : List Token}
    (ht : t.kind = .leftBracket) (h : d < maxDepth → TooDeep (readList (d + 1) ts)) :
    TooDeep (readOperand d (t :: ts)) := by
  rw [← tooDeep_outcome, outcome_readOperand, headKind, ht]
  refine tooDeep_nested ?_
  intro hdepth
  exact (h hdepth).outcome.andThen

theorem tooDeep_readOperand_call {d : Nat} {t u : Token} {us : List Token} {name : String}
    (ht : t.kind = .name name) (hu : u.kind = .leftParen)
    (h : d < maxDepth → TooDeep (readArgs (d + 1) us)) :
    TooDeep (readOperand d (t :: u :: us)) := by
  rw [← tooDeep_outcome, outcome_readOperand, headKind, ht, List.tail_cons, headKind]
  dsimp only
  rw [if_pos hu]
  refine tooDeep_nested ?_
  intro hdepth
  exact (h hdepth).outcome.andThen

theorem tooDeep_readArgs {d : Nat} {tokens : List Token} (hhead : headKind tokens ≠ .rightParen)
    (h : TooDeep (readMoreArgs d [] tokens)) : TooDeep (readArgs d tokens) := by
  rw [← tooDeep_outcome, outcome_readArgs, orEmpty, if_neg hhead]
  exact h.outcome

theorem tooDeep_readMoreArgs_first {d : Nat} {tokens : List Token} {before : List Expr}
    (h : TooDeep (readChain .or d tokens)) : TooDeep (readMoreArgs d before tokens) := by
  rw [← tooDeep_outcome, outcome_readMoreArgs]
  exact h.outcome.andThen

theorem tooDeep_readMoreArgs_more {d : Nat} {tokens us : List Token} {u : Token}
    {before : List Expr} {arg : Expr} (harg : Reads (readChain .or d tokens) arg (u :: us))
    (hu : u.kind = .comma) (h : TooDeep (readMoreArgs d (arg :: before) us)) :
    TooDeep (readMoreArgs d before tokens) := by
  rw [← tooDeep_outcome, outcome_readMoreArgs]
  refine harg.andThen_tooDeep ?_
  rw [listed, headKind, if_pos hu]
  exact h.outcome

/-- The first operand of a comparison is refused before any sign is looked for. -/
theorem tooDeep_readComparison_left {d : Nat} {tokens : List Token}
    (h : TooDeep (readOperand d tokens)) : TooDeep (readComparison d tokens) := by
  rw [← tooDeep_outcome, outcome_readComparison]
  exact h.outcome.andThen

theorem tooDeep_readComparison_right {d : Nat} {tokens ts : List Token} {t : Token} {left : Expr}
    {op : Comparison} (hleft : Reads (readOperand d tokens) left (t :: ts))
    (ht : t.kind = .comparison op) (h : TooDeep (readOperand d ts)) :
    TooDeep (readComparison d tokens) := by
  rw [← tooDeep_outcome, outcome_readComparison]
  refine hleft.andThen_tooDeep ?_
  rw [headKind, comparison?_eq_some_iff.mpr ht]
  exact h.outcome.andThen

theorem tooDeep_readNot_compared {d : Nat} {tokens : List Token} (hhead : headKind tokens ≠ .not)
    (h : TooDeep (readComparison d tokens)) : TooDeep (readNot d tokens) := by
  rw [← tooDeep_outcome, outcome_readNot, if_neg hhead]
  exact h.outcome

/-- A not is refused for the limit or for what stands behind it. -/
theorem tooDeep_readNot_not {d : Nat} {t : Token} {ts : List Token} (ht : t.kind = .not)
    (h : d < maxDepth → TooDeep (readNot (d + 1) ts)) : TooDeep (readNot d (t :: ts)) := by
  rw [← tooDeep_outcome, outcome_readNot, headKind, if_pos ht]
  refine tooDeep_nested ?_
  intro hdepth
  exact (h hdepth).outcome.andThen

/-- The first member of a chain is refused before any operator is looked for. -/
theorem tooDeep_readChain_link {op : Connective} {d : Nat} {tokens : List Token}
    (h : TooDeep (readLink op d tokens)) : TooDeep (readChain op d tokens) := by
  rw [← tooDeep_outcome, outcome_readChain]
  exact h.outcome.andThen

theorem tooDeep_readChain_more {op : Connective} {d : Nat} {tokens mid : List Token} {left : Expr}
    (hlink : Reads (readLink op d tokens) left mid) (h : TooDeep (extendChain op d left mid)) :
    TooDeep (readChain op d tokens) := by
  rw [← tooDeep_outcome, outcome_readChain]
  exact hlink.andThen_tooDeep h.outcome

/-- An operator is refused for the limit or for the member behind it. -/
theorem tooDeep_extendChain_link {op : Connective} {d : Nat} {t : Token} {ts : List Token}
    {left : Expr} (ht : t.kind = .connective op)
    (h : d < maxDepth → TooDeep (readLink op (d + 1) ts)) :
    TooDeep (extendChain op d left (t :: ts)) := by
  rw [← tooDeep_outcome, outcome_extendChain, headKind, if_pos ht]
  refine tooDeep_nested ?_
  intro hdepth
  exact (h hdepth).outcome.andThen

theorem tooDeep_extendChain_more {op : Connective} {d : Nat} {t : Token} {ts mid : List Token}
    {left right : Expr} (ht : t.kind = .connective op)
    (hlink : Reads (readLink op (d + 1) ts) right mid)
    (h : TooDeep (extendChain op (d + 1) (.connective op left right) mid)) :
    TooDeep (extendChain op d left (t :: ts)) := by
  rw [← tooDeep_outcome, outcome_extendChain, headKind, if_pos ht]
  refine tooDeep_nested ?_
  intro _
  exact hlink.andThen_tooDeep h.outcome

/-! ## Lists -/

/-- The tokens of a row keep its first kind, whatever stands behind them. -/
theorem headKind_append {tokens rest : List Token} {k : TokenKind} {ks : List TokenKind}
    (h : kinds tokens = k :: ks) : headKind (tokens ++ rest) = k := by
  obtain ⟨t, ts, rfl, ht, -⟩ := kinds_eq_cons h
  exact ht

mutual

/-- A list that nests too deep is refused at its bracket, or at what stands behind it. -/
theorem bracketed_tooDeep : ∀ {ks : List TokenKind} {items : List Literal} {n : Nat},
    Bracketed ks items n → ∀ {d : Nat} {tokens : List Token} (rest : List Token),
      kinds tokens = ks → d ≤ maxDepth → maxDepth < d + n →
        ∃ t ts, tokens = t :: ts ∧ t.kind = .leftBracket ∧
          (d < maxDepth → TooDeep (readList (d + 1) (ts ++ rest)))
  | _, _, _, .empty, d, tokens, rest, hks, hd, hn => by
    obtain ⟨t, ts, rfl, ht, -⟩ := kinds_eq_cons hks
    exact ⟨t, ts, rfl, ht, fun hdepth => by omega⟩
  | _, _, _, .items hitems, d, tokens, rest, hks, hd, hn => by
    obtain ⟨t, ts, rfl, ht, hts⟩ := kinds_eq_cons hks
    obtain ⟨front, u, back, rfl, hfront, hu, hback⟩ := kinds_eq_append_cons hts
    refine ⟨t, _, rfl, ht, ?_⟩
    intro hdepth
    -- With the bracket itself within the limit, it is the items that are too deep.
    have hinner := items_tooDeep (d := d + 1) hitems [] (u :: back ++ rest) hfront hdepth (by omega)
    obtain ⟨k, ks', rfl, hk⟩ := items_head hitems
    rw [List.append_assoc]
    refine tooDeep_readList ?_ hinner
    rw [headKind_append hfront]
    exact hk

theorem items_tooDeep : ∀ {ks : List TokenKind} {vs : List Literal} {n : Nat},
    Items ks vs n → ∀ {d : Nat} {tokens : List Token} (before : List Literal)
      (rest : List Token), kinds tokens = ks → d ≤ maxDepth → maxDepth < d + n →
        TooDeep (readItems d before (tokens ++ rest))
  | _, _, _, .one hitem, d, tokens, before, rest, hks, hd, hn => by
    obtain ⟨t, ts, rfl, htoo⟩ := item_tooDeep hitem rest hks hd hn
    exact tooDeep_readItems_first htoo
  | _, _, _, .more (n := n) hitem hitems, d, tokens, before, rest, hks, hd, hn => by
    obtain ⟨front, u, back, rfl, hfront, hu, hback⟩ := kinds_eq_append_cons hks
    rw [List.append_assoc]
    -- If the first item is within the limit it is read, and a later one is refused; otherwise it is
    -- the first one itself.
    by_cases hfirst : d + n ≤ maxDepth
    · have hmore := fun v => items_tooDeep (d := d) hitems (v :: before) rest hback hd (by omega)
      obtain ⟨k, ks', rfl, -⟩ := item_head hitem
      obtain ⟨t, ts, rfl, -, -⟩ := kinds_eq_cons hfront
      have hread := item_complete (d := d) hitem (u :: back ++ rest) hfront hfirst
      exact tooDeep_readItems_more hread hu (hmore _)
    · obtain ⟨t, ts, rfl, htoo⟩ := item_tooDeep hitem (u :: back ++ rest) hfront hd (by omega)
      exact tooDeep_readItems_first htoo

theorem item_tooDeep : ∀ {ks : List TokenKind} {v : Literal} {n : Nat},
    Item ks v n → ∀ {d : Nat} {tokens : List Token} (rest : List Token),
      kinds tokens = ks → d ≤ maxDepth → maxDepth < d + n →
        ∃ t ts, tokens = t :: ts ∧ TooDeep (readItem d t (ts ++ rest))
  | _, _, _, .constant _, d, tokens, rest, hks, hd, hn => by omega
  | _, _, _, .list hlist, d, tokens, rest, hks, hd, hn => by
    obtain ⟨t, ts, rfl, ht, hinner⟩ := bracketed_tooDeep hlist rest hks hd hn
    exact ⟨t, ts, rfl, tooDeep_readItem ht hinner⟩

end

/-! ## Rules -/

/-- From the start of a chain within the limit a reader gets to the refusal at its end. -/
theorem chain_tooDeep_of_extend {op : Connective} {ks : List TokenKind} {left : Expr} {i n d : Nat}
    {tokens : List Token} (h : Chain op ks left i n) (rest : List Token) (hks : kinds tokens = ks)
    (hn : d + n ≤ maxDepth) (hrest : StopsLink op (headKind rest))
    (hmore : TooDeep (extendChain op (d + i) left rest)) :
    TooDeep (readChain op d (tokens ++ rest)) := by
  -- By induction on the operators of the start, from its end: each one is within the limit and is
  -- read, so what stands behind it is reached.
  induction i generalizing ks left n tokens rest with
  | zero =>
    cases h with
    | first hlink => exact tooDeep_readChain_more (link_complete hlink hks hn hrest) hmore
  | succ i ih =>
    cases h with
    | next hchain hlink =>
      obtain ⟨front, t, back, rfl, hfront, ht, hback⟩ := kinds_eq_append_cons hks
      have hright := link_complete (d := d + i + 1) hlink hback (by omega) hrest
      have hstep : TooDeep (extendChain op (d + i) _ (t :: back ++ rest)) :=
        tooDeep_extendChain_more ht hright hmore
      rw [List.append_assoc]
      refine ih hchain (t :: back ++ rest) hfront (by omega) ?_ hstep
      show StopsLink op t.kind
      rw [ht]
      exact stopsLink_connective op

mutual

/-- Of the operands a group, a list and a call can be too deep; a constant and a name take no level.
-/
theorem operand_tooDeep : ∀ {ks : List TokenKind} {e : Expr} {n : Nat},
    Operand ks e n → ∀ {d : Nat} {tokens : List Token} (rest : List Token),
      kinds tokens = ks → d ≤ maxDepth → maxDepth < d + n →
        TooDeep (readOperand d (tokens ++ rest))
  | _, _, _, .constant _, d, tokens, rest, hks, hd, hn => by omega
  | _, _, _, .list hlist, d, tokens, rest, hks, hd, hn => by
    obtain ⟨t, ts, rfl, ht, hinner⟩ := bracketed_tooDeep hlist rest hks hd hn
    exact tooDeep_readOperand_list ht hinner
  | _, _, _, .path _, d, tokens, rest, hks, hd, hn => by omega
  | _, _, _, .parens hchain, d, tokens, rest, hks, hd, hn => by
    obtain ⟨t, ts, rfl, ht, hts⟩ := kinds_eq_cons hks
    obtain ⟨front, u, back, rfl, hfront, hu, hback⟩ := kinds_eq_append_cons hts
    refine tooDeep_readOperand_parens ht ?_
    intro hdepth
    show TooDeep (readChain .or (d + 1) (front ++ u :: back ++ rest))
    rw [List.append_assoc]
    exact chain_tooDeep hchain _ hfront hdepth (by omega)
  | _, _, _, .callEmpty name, d, tokens, rest, hks, hd, hn => by
    obtain ⟨t, ts, rfl, ht, hts⟩ := kinds_eq_cons hks
    obtain ⟨u, us, rfl, hu, hus⟩ := kinds_eq_cons hts
    exact tooDeep_readOperand_call ht hu fun hdepth => by omega
  | _, _, _, .call name hargs, d, tokens, rest, hks, hd, hn => by
    obtain ⟨t, ts, rfl, ht, hts⟩ := kinds_eq_cons hks
    obtain ⟨u, us, rfl, hu, hus⟩ := kinds_eq_cons hts
    obtain ⟨front, close, back, rfl, hfront, -, -⟩ := kinds_eq_append_cons hus
    refine tooDeep_readOperand_call ht hu ?_
    intro hdepth
    have hinner := args_tooDeep (d := d + 1) hargs [] (close :: back ++ rest) hfront hdepth
      (by omega)
    obtain ⟨k, ks', rfl, hk⟩ := args_head hargs
    show TooDeep (readArgs (d + 1) (front ++ close :: back ++ rest))
    rw [List.append_assoc]
    -- The arguments begin with no closing parenthesis, so they are looked at.
    refine tooDeep_readArgs ?_ hinner
    rw [headKind_append hfront]
    exact hk

theorem args_tooDeep : ∀ {ks : List TokenKind} {es : List Expr} {n : Nat},
    Args ks es n → ∀ {d : Nat} {tokens : List Token} (before : List Expr) (rest : List Token),
      kinds tokens = ks → d ≤ maxDepth → maxDepth < d + n →
        TooDeep (readMoreArgs d before (tokens ++ rest))
  | _, _, _, .one hchain, d, tokens, before, rest, hks, hd, hn =>
    tooDeep_readMoreArgs_first (chain_tooDeep hchain rest hks hd hn)
  | _, _, _, .more (n := n) hchain hargs, d, tokens, before, rest, hks, hd, hn => by
    obtain ⟨front, u, back, rfl, hfront, hu, hback⟩ := kinds_eq_append_cons hks
    rw [List.append_assoc]
    by_cases hfirst : d + n ≤ maxDepth
    · obtain ⟨hlink, hor⟩ := stopsChain_or (Or.inr (Or.inl hu))
      have hread := chain_complete (d := d) hchain (u :: back ++ rest) hfront hfirst hlink
        (extendChain_stops hor)
      exact tooDeep_readMoreArgs_more hread hu (args_tooDeep hargs _ rest hback hd (by omega))
    · exact tooDeep_readMoreArgs_first (chain_tooDeep hchain _ hfront hd (by omega))

/-- A comparison is refused at the first operand that is too deep. -/
theorem compared_tooDeep : ∀ {ks : List TokenKind} {e : Expr} {n : Nat},
    Compared ks e n → ∀ {d : Nat} {tokens : List Token} (rest : List Token),
      kinds tokens = ks → d ≤ maxDepth → maxDepth < d + n →
        TooDeep (readComparison d (tokens ++ rest))
  | _, _, _, .operand hoperand, _, _, rest, hks, hd, hn =>
    tooDeep_readComparison_left (operand_tooDeep hoperand rest hks hd hn)
  | _, _, _, .comparison (n := n) op hleft hright, d, tokens, rest, hks, hd, hn => by
    obtain ⟨front, t, back, rfl, hfront, ht, hback⟩ := kinds_eq_append_cons hks
    rw [List.append_assoc]
    by_cases hfirst : d + n ≤ maxDepth
    · have hl := operand_complete (d := d) hleft (t :: back ++ rest) hfront hfirst
        (by show t.kind ≠ .leftParen; rw [ht]; nofun)
      exact tooDeep_readComparison_right hl ht (operand_tooDeep hright rest hback hd (by omega))
    · exact tooDeep_readComparison_left (operand_tooDeep hleft _ hfront hd (by omega))

/-- A row of nots is refused at the not that is one too many, or at the comparison behind them. -/
theorem negated_tooDeep : ∀ {ks : List TokenKind} {e : Expr} {n : Nat},
    Negated ks e n → ∀ {d : Nat} {tokens : List Token} (rest : List Token),
      kinds tokens = ks → d ≤ maxDepth → maxDepth < d + n → TooDeep (readNot d (tokens ++ rest))
  | _, _, _, .compared hcompared, d, tokens, rest, hks, hd, hn => by
    have htoo := compared_tooDeep hcompared rest hks hd hn
    obtain ⟨k, ks', rfl, hk, -⟩ := compared_head hcompared
    refine tooDeep_readNot_compared ?_ htoo
    rw [headKind_append hks]
    exact hk
  | _, _, _, .not hnegated, d, tokens, rest, hks, hd, hn => by
    obtain ⟨t, ts, rfl, ht, hts⟩ := kinds_eq_cons hks
    refine tooDeep_readNot_not ht ?_
    intro hdepth
    exact negated_tooDeep hnegated rest hts hdepth (by omega)

theorem link_tooDeep : ∀ {op : Connective} {ks : List TokenKind} {e : Expr} {n : Nat},
    Link op ks e n → ∀ {d : Nat} {tokens : List Token} (rest : List Token),
      kinds tokens = ks → d ≤ maxDepth → maxDepth < d + n →
        TooDeep (readLink op d (tokens ++ rest))
  | _, _, _, _, .and hnegated, _, _, rest, hks, hd, hn => by
    rw [readLink]
    exact negated_tooDeep hnegated rest hks hd hn
  | _, _, _, _, .or hchain, _, _, rest, hks, hd, hn => by
    rw [readLink]
    exact chain_tooDeep hchain rest hks hd hn

/-- A chain is refused at a member that is too deep, or at the operator that is one too many. -/
theorem chain_tooDeep : ∀ {op : Connective} {ks : List TokenKind} {e : Expr} {i n : Nat},
    Chain op ks e i n → ∀ {d : Nat} {tokens : List Token} (rest : List Token),
      kinds tokens = ks → d ≤ maxDepth → maxDepth < d + n →
        TooDeep (readChain op d (tokens ++ rest))
  | _, _, _, _, _, .first hlink, _, _, rest, hks, hd, hn =>
    tooDeep_readChain_link (link_tooDeep hlink rest hks hd hn)
  | op, _, _, _, _, .next (i := i) (n := n) hchain hlink, d, tokens, rest, hks, hd, hn => by
    obtain ⟨front, t, back, rfl, hfront, ht, hback⟩ := kinds_eq_append_cons hks
    rw [List.append_assoc]
    by_cases hfirst : d + n ≤ maxDepth
    · -- The chain before is within the limit, so it is the connective or the link behind it.
      refine chain_tooDeep_of_extend hchain (t :: back ++ rest) hfront hfirst ?_ ?_
      · show StopsLink op t.kind
        rw [ht]
        exact stopsLink_connective op
      · refine tooDeep_extendChain_link ht ?_
        intro hdepth
        exact link_tooDeep hlink rest hback hdepth (by omega)
    · exact chain_tooDeep hchain _ hfront hd (by omega)

end

/-! ## The whole row -/

/-- A whole row is refused as nested too deeply if its chain is, and the place is that of the token
where reading stopped. -/
theorem ofTokens_of_tooDeep {tokens : List Token}
    (h : TooDeep (readChain .or 0 (tokens.takeWhile (·.kind ≠ .eof)))) :
    ∃ place, Expr.ofTokens tokens = .error ⟨place, .nestedTooDeeply⟩ := by
  obtain ⟨rest, hread⟩ := h
  unfold Expr.ofTokens
  rw [hread]
  cases rest with
  | nil => exact ⟨_, rfl⟩
  | cons t ts => exact ⟨t.position, rfl⟩

/-- Tokens before the end that derive a chain are read as it within the limit, and beyond the limit
are refused because of their nesting. -/
theorem ofTokens_of_chain {front : List Token} {e : Expr} {i n position : Nat}
    (h : Chain .or (kinds front) e i n) :
    (n ≤ maxDepth → Expr.ofTokens (front ++ [⟨.eof, position⟩]) = .ok e) ∧
      (maxDepth < n → ∃ place,
        Expr.ofTokens (front ++ [⟨.eof, position⟩]) = .error ⟨place, .nestedTooDeeply⟩) := by
  -- A chain has no end token in it, so the whole of it is what is read.
  have htake : (front ++ [(⟨.eof, position⟩ : Token)]).takeWhile (·.kind ≠ .eof) = front :=
    takeWhile_ne_eof_ended (chain_no_eof h) rfl
  constructor
  · intro hn
    refine ofTokens_eq_ok_iff.mpr ?_
    rw [htake]
    exact reads_readChain_iff.mpr ⟨i, n, h, hn⟩
  · intro hn
    have htoo := chain_tooDeep (d := 0) h [] rfl (Nat.zero_le _) (by omega)
    rw [List.append_nil, ← htake] at htoo
    exact ofTokens_of_tooDeep htoo

end AccessRules.Rule.Grammar
