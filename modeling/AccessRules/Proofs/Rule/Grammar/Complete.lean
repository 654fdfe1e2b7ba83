import AccessRules.Proofs.Rule.Grammar.Sound

/-!
# What is derived is read

A derivation whose nesting fits under `maxDepth` drives the readers to exactly its tree, whatever
tokens stand behind it, as long as the next token cannot extend it: an opening parenthesis would
make a call of a path, a comparison sign a comparison of an operand, and a connective would go on
with a chain. `StopsLink` names the tokens that end a link of a chain.

A chain is derived from the left but read with its left part in hand, so `chain_complete` is stated
for a reader that goes on: if the readers get from the end of a chain to some outcome, they get
there from its start.
-/

namespace AccessRules.Rule.Grammar

/-! ## How derivations start -/

/-- An item of a list starts with no closing bracket. -/
theorem item_head {ks : List TokenKind} {v : Literal} {n : Nat} (h : Item ks v n) :
    ∃ k ks', ks = k :: ks' ∧ k ≠ .rightBracket := by
  cases h with
  | constant hconstant =>
    refine ⟨_, [], rfl, ?_⟩
    cases hconstant <;> nofun
  | list hlist =>
    cases hlist with
    | empty => exact ⟨_, _, rfl, nofun⟩
    | items _ => exact ⟨_, _, rfl, nofun⟩

/-- An operand starts with neither `not` nor a closing parenthesis. -/
theorem operand_head {ks : List TokenKind} {e : Expr} {n : Nat} (h : Operand ks e n) :
    ∃ k ks', ks = k :: ks' ∧ k ≠ .not ∧ k ≠ .rightParen := by
  cases h with
  | constant hconstant =>
    refine ⟨_, [], rfl, ?_⟩
    cases hconstant <;> exact ⟨nofun, nofun⟩
  | list hlist =>
    cases hlist with
    | empty => exact ⟨_, _, rfl, nofun, nofun⟩
    | items _ => exact ⟨_, _, rfl, nofun, nofun⟩
  | path name => exact ⟨_, _, rfl, nofun, nofun⟩
  | parens _ => exact ⟨_, _, rfl, nofun, nofun⟩
  | callEmpty name => exact ⟨_, _, rfl, nofun, nofun⟩
  | call name _ => exact ⟨_, _, rfl, nofun, nofun⟩

/-- A comparison begins like its first operand, so never with a not. -/
theorem compared_head {ks : List TokenKind} {e : Expr} {n : Nat} (h : Compared ks e n) :
    ∃ k ks', ks = k :: ks' ∧ k ≠ .not ∧ k ≠ .rightParen := by
  cases h with
  | operand hoperand => exact operand_head hoperand
  | comparison op hleft _ =>
    obtain ⟨k, ks', rfl, hk⟩ := operand_head hleft
    exact ⟨k, _, rfl, hk⟩

theorem negated_head {ks : List TokenKind} {e : Expr} {n : Nat} (h : Negated ks e n) :
    ∃ k ks', ks = k :: ks' ∧ k ≠ .rightParen := by
  cases h with
  | compared hcompared =>
    obtain ⟨k, ks', rfl, -, hk⟩ := compared_head hcompared
    exact ⟨k, ks', rfl, hk⟩
  | not _ => exact ⟨_, _, rfl, nofun⟩

mutual

theorem link_head : ∀ {op : Connective} {ks : List TokenKind} {e : Expr} {n : Nat},
    Link op ks e n → ∃ k ks', ks = k :: ks' ∧ k ≠ .rightParen
  | _, _, _, _, .and h => negated_head h
  | _, _, _, _, .or h => chain_head h

theorem chain_head : ∀ {op : Connective} {ks : List TokenKind} {e : Expr} {i n : Nat},
    Chain op ks e i n → ∃ k ks', ks = k :: ks' ∧ k ≠ .rightParen
  | _, _, _, _, _, .first h => link_head h
  | _, _, _, _, _, .next h _ => by
    obtain ⟨k, ks', rfl, hk⟩ := chain_head h
    exact ⟨k, _, rfl, hk⟩

end

/-- Arguments begin with no closing parenthesis, so a reader of them does not take the call for an
empty one. -/
theorem args_head {ks : List TokenKind} {args : List Expr} {n : Nat} (h : Args ks args n) :
    ∃ k ks', ks = k :: ks' ∧ k ≠ .rightParen := by
  cases h with
  | one hchain => exact chain_head hchain
  | more hchain _ =>
    obtain ⟨k, ks', rfl, hk⟩ := chain_head hchain
    exact ⟨k, _, rfl, hk⟩

/-- Items begin with no closing bracket, so a reader of them does not take the list for an empty
one. -/
theorem items_head {ks : List TokenKind} {vs : List Literal} {n : Nat} (h : Items ks vs n) :
    ∃ k ks', ks = k :: ks' ∧ k ≠ .rightBracket := by
  cases h with
  | one hitem => exact item_head hitem
  | more hitem _ =>
    obtain ⟨k, ks', rfl, hk⟩ := item_head hitem
    exact ⟨k, _, rfl, hk⟩

/-! ## Tokens of given kinds -/

theorem kinds_eq_cons {tokens : List Token} {k : TokenKind} {ks : List TokenKind}
    (h : kinds tokens = k :: ks) : ∃ t ts, tokens = t :: ts ∧ t.kind = k ∧ kinds ts = ks :=
  List.map_eq_cons_iff.mp h

/-- Tokens whose kinds are two rows around one kind are two rows around one token. -/
theorem kinds_eq_append_cons {tokens : List Token} {ks ks' : List TokenKind} {k : TokenKind}
    (h : kinds tokens = ks ++ k :: ks') :
    ∃ front t back, tokens = front ++ t :: back ∧ kinds front = ks ∧ t.kind = k ∧
      kinds back = ks' := by
  obtain ⟨front, more, rfl, hfront, hmore⟩ := List.map_eq_append_iff.mp h
  obtain ⟨t, back, rfl, ht, hback⟩ := kinds_eq_cons hmore
  exact ⟨front, t, back, rfl, hfront, ht, hback⟩

theorem kinds_eq_singleton {tokens : List Token} {k : TokenKind} (h : kinds tokens = [k]) :
    ∃ t, tokens = [t] ∧ t.kind = k := by
  obtain ⟨t, ts, rfl, ht, hts⟩ := kinds_eq_cons h
  rw [List.map_eq_nil_iff.mp hts]
  exact ⟨t, rfl, ht⟩

/-! ## Lists -/

mutual

/-- A list is read behind its opening bracket, one level deeper than the bracket itself stands. -/
theorem bracketed_complete : ∀ {ks : List TokenKind} {items : List Literal} {n : Nat},
    Bracketed ks items n → ∀ {d : Nat} {tokens : List Token} (rest : List Token),
      kinds tokens = ks → d + n ≤ maxDepth →
        ∃ t ts, tokens = t :: ts ∧ t.kind = .leftBracket ∧ d < maxDepth ∧
          Reads (readList (d + 1) (ts ++ rest)) items rest
  | _, _, _, .empty, d, tokens, rest, hks, hn => by
    obtain ⟨t, ts, rfl, ht, hts⟩ := kinds_eq_cons hks
    obtain ⟨u, rfl, hu⟩ := kinds_eq_singleton hts
    exact ⟨t, [u], rfl, ht, hn, reads_readList.mpr (Or.inl ⟨u, rfl, hu, rfl⟩)⟩
  | _, items, _, .items hitems, d, tokens, rest, hks, hn => by
    obtain ⟨t, ts, rfl, ht, hts⟩ := kinds_eq_cons hks
    obtain ⟨front, u, back, rfl, hfront, hu, hback⟩ := kinds_eq_append_cons hts
    obtain rfl := List.map_eq_nil_iff.mp hback
    refine ⟨t, _, rfl, ht, by omega, reads_readList.mpr (Or.inr ⟨?_, ?_⟩)⟩
    · -- The items begin with no closing bracket, so the list is not taken for an empty one.
      obtain ⟨k, ks', rfl, hk⟩ := items_head hitems
      obtain ⟨v, vs, rfl, hv, -⟩ := kinds_eq_cons hfront
      show v.kind ≠ .rightBracket
      rw [hv]
      exact hk
    · rw [List.append_assoc]
      exact items_complete hitems [] rest hfront (by omega) hu

/-- Items are read up to behind the closing bracket, and come behind those that were read before
them. -/
theorem items_complete : ∀ {ks : List TokenKind} {vs : List Literal} {n : Nat},
    Items ks vs n → ∀ {d : Nat} {tokens : List Token} {close : Token} (before : List Literal)
      (rest : List Token), kinds tokens = ks → d + n ≤ maxDepth → close.kind = .rightBracket →
        Reads (readItems d before (tokens ++ close :: rest)) (before.reverse ++ vs) rest
  | _, _, _, .one hitem, d, tokens, close, before, rest, hks, hn, hclose => by
    obtain ⟨k, ks', rfl, -⟩ := item_head hitem
    obtain ⟨t, ts, rfl, ht, hts⟩ := kinds_eq_cons hks
    have hread := item_complete hitem (close :: rest) hks hn
    exact reads_readItems.mpr ⟨t, _, _, close, rest, rfl, hread, Or.inr ⟨hclose, by simp, rfl⟩⟩
  | _, _, _, .more (v := v) hitem hitems, d, tokens, close, before, rest, hks, hn, hclose => by
    obtain ⟨front, u, back, rfl, hfront, hu, hback⟩ := kinds_eq_append_cons hks
    obtain ⟨k, ks', rfl, -⟩ := item_head hitem
    obtain ⟨t, ts, rfl, ht, hts⟩ := kinds_eq_cons hfront
    have hread := item_complete (d := d) hitem (u :: back ++ close :: rest) hfront (by omega)
    -- The items read so far are kept in reverse; this one is put in front of them.
    have hmore := items_complete (d := d) hitems (v :: before) rest hback (by omega) hclose
    refine reads_readItems.mpr ⟨t, _, _, u, back ++ close :: rest, ?_, hread, Or.inl ⟨hu, ?_⟩⟩
    · simp
    · rw [List.reverse_cons, List.append_assoc, List.singleton_append] at hmore
      exact hmore

theorem item_complete : ∀ {ks : List TokenKind} {v : Literal} {n : Nat},
    Item ks v n → ∀ {d : Nat} {t : Token} {ts : List Token} (rest : List Token),
      kinds (t :: ts) = ks → d + n ≤ maxDepth → Reads (readItem d t (ts ++ rest)) v rest
  | _, _, _, .constant hconstant, d, t, ts, rest, hks, hn => by
    obtain ⟨u, heq, hu⟩ := kinds_eq_singleton hks
    cases heq
    exact reads_readItem.mpr (Or.inr ⟨hu ▸ hconstant, rfl⟩)
  | _, _, _, .list hlist, d, t, ts, rest, hks, hn => by
    obtain ⟨_, _, heq, ht, hdepth, hread⟩ := bracketed_complete hlist rest hks hn
    cases heq
    exact reads_readItem.mpr (Or.inl ⟨ht, hdepth, _, rfl, hread⟩)

end

/-! ## Rules -/

/-- A token that cannot go on with a link of a chain of `op`. -/
def StopsLink : Connective → TokenKind → Prop
  | .and, k => k ≠ .leftParen ∧ ∀ op, k ≠ .comparison op
  | .or, k => k ≠ .leftParen ∧ (∀ op, k ≠ .comparison op) ∧ k ≠ .connective .and

/-- The connective of a chain ends each link before it. -/
theorem stopsLink_connective (op : Connective) : StopsLink op (.connective op) := by
  cases op with
  | and => exact ⟨nofun, nofun⟩
  | or => exact ⟨nofun, nofun, nofun⟩

/-- A closing parenthesis, a comma and the end of the text end every chain. -/
theorem stopsChain_or {k : TokenKind} (h : k = .rightParen ∨ k = .comma ∨ k = .eof) :
    StopsLink .or k ∧ k ≠ .connective .or := by
  rcases h with rfl | rfl | rfl <;> exact ⟨⟨nofun, nofun, nofun⟩, nofun⟩

/-- Where its connective does not follow, a chain is at its end. -/
theorem extendChain_stops {op : Connective} {d : Nat} {e : Expr} {rest : List Token}
    (h : headKind rest ≠ .connective op) : Reads (extendChain op d e rest) e rest :=
  reads_extendChain.mpr (Or.inl ⟨h, rfl, rfl⟩)

mutual

/-- An operand is read unless an opening parenthesis follows, which would make a call of a name. -/
theorem operand_complete : ∀ {ks : List TokenKind} {e : Expr} {n : Nat},
    Operand ks e n → ∀ {d : Nat} {tokens : List Token} (rest : List Token),
      kinds tokens = ks → d + n ≤ maxDepth → headKind rest ≠ .leftParen →
        Reads (readOperand d (tokens ++ rest)) e rest
  | _, _, _, .constant hconstant, d, tokens, rest, hks, hn, hrest => by
    obtain ⟨t, rfl, rfl⟩ := kinds_eq_singleton hks
    -- None of the tokens that start another operand stands for a constant.
    refine (reads_readOperand_constant ?_ ?_ ?_).mpr ⟨_, hconstant, rfl, rfl⟩
    all_goals
      intros
      intro hk
      rw [hk] at hconstant
      cases hconstant
  | _, _, _, .list hlist, d, tokens, rest, hks, hn, hrest => by
    obtain ⟨t, ts, rfl, ht, hdepth, hread⟩ := bracketed_complete hlist rest hks hn
    exact (reads_readOperand_list ht).mpr ⟨hdepth, _, hread, rfl⟩
  | _, _, _, .path name, d, tokens, rest, hks, hn, hrest => by
    obtain ⟨t, rfl, ht⟩ := kinds_eq_singleton hks
    exact (reads_readOperand_name ht).mpr (Or.inl ⟨hrest, rfl, rfl⟩)
  | _, _, _, .parens hchain, d, tokens, rest, hks, hn, hrest => by
    obtain ⟨t, ts, rfl, ht, hts⟩ := kinds_eq_cons hks
    obtain ⟨front, u, back, rfl, hfront, hu, hback⟩ := kinds_eq_append_cons hts
    obtain rfl := List.map_eq_nil_iff.mp hback
    obtain ⟨hlink, hor⟩ := stopsChain_or (Or.inl hu)
    -- A closing parenthesis ends every chain, so the one inside is read up to it.
    have hread := chain_complete (d := d + 1) hchain (u :: rest) hfront (by omega) hlink
      (extendChain_stops hor)
    refine (reads_readOperand_parens ht).mpr ⟨by omega, u, ?_, hu⟩
    show Reads (readChain .or (d + 1) (front ++ [u] ++ rest)) _ _
    rw [List.append_assoc]
    exact hread
  | _, _, _, .callEmpty name, d, tokens, rest, hks, hn, hrest => by
    obtain ⟨t, ts, rfl, ht, hts⟩ := kinds_eq_cons hks
    obtain ⟨u, us, rfl, hu, hus⟩ := kinds_eq_cons hts
    obtain ⟨close, rfl, hclose⟩ := kinds_eq_singleton hus
    exact (reads_readOperand_name ht).mpr (Or.inr ⟨u, close :: rest, [], rfl, hu, hn,
      reads_readArgs.mpr (Or.inl ⟨close, rfl, hclose, rfl⟩), rfl⟩)
  | _, _, _, .call name hargs, d, tokens, rest, hks, hn, hrest => by
    obtain ⟨t, ts, rfl, ht, hts⟩ := kinds_eq_cons hks
    obtain ⟨u, us, rfl, hu, hus⟩ := kinds_eq_cons hts
    obtain ⟨front, close, back, rfl, hfront, hclose, hback⟩ := kinds_eq_append_cons hus
    obtain rfl := List.map_eq_nil_iff.mp hback
    have hread := args_complete (d := d + 1) [] rest hargs hfront (by omega) hclose
    refine (reads_readOperand_name ht).mpr (Or.inr ⟨u, front ++ close :: rest, _, by simp, hu,
      by omega, reads_readArgs.mpr (Or.inr ⟨?_, hread⟩), rfl⟩)
    obtain ⟨k, ks', rfl, hk⟩ := args_head hargs
    obtain ⟨v, vs, rfl, hv, -⟩ := kinds_eq_cons hfront
    show v.kind ≠ .rightParen
    rw [hv]
    exact hk

/-- Arguments are read up to behind the closing parenthesis, and come behind those that were read
before them. -/
theorem args_complete : ∀ {ks : List TokenKind} {es : List Expr} {n d : Nat}
    {tokens : List Token} {close : Token} (before : List Expr) (rest : List Token),
    Args ks es n → kinds tokens = ks → d + n ≤ maxDepth → close.kind = .rightParen →
      Reads (readMoreArgs d before (tokens ++ close :: rest)) (before.reverse ++ es) rest
  | _, _, _, d, tokens, close, before, rest, .one hchain, hks, hn, hclose => by
    obtain ⟨hlink, hor⟩ := stopsChain_or (Or.inl hclose)
    have hread := chain_complete hchain (close :: rest) hks hn hlink
      (extendChain_stops hor)
    exact reads_readMoreArgs.mpr ⟨_, close, rest, hread, Or.inr ⟨hclose, by simp, rfl⟩⟩
  | _, _, _, d, tokens, close, before, rest, .more (e := e) hchain hargs, hks, hn, hclose => by
    -- The comma ends the first argument, and the others are read with it before them.
    obtain ⟨front, u, back, rfl, hfront, hu, hback⟩ := kinds_eq_append_cons hks
    obtain ⟨hlink, hor⟩ := stopsChain_or (Or.inr (Or.inl hu))
    have hread := chain_complete (d := d) hchain (u :: back ++ close :: rest) hfront
      (by omega) hlink (extendChain_stops hor)
    have hmore := args_complete (d := d) (e :: before) rest hargs hback (by omega) hclose
    refine reads_readMoreArgs.mpr ⟨e, u, back ++ close :: rest, ?_, Or.inl ⟨hu, ?_⟩⟩
    · rw [List.append_assoc]
      exact hread
    · rw [List.reverse_cons, List.append_assoc, List.singleton_append] at hmore
      exact hmore

/-- A comparison is read where no second sign follows, for signs do not chain. -/
theorem compared_complete : ∀ {ks : List TokenKind} {e : Expr} {n : Nat},
    Compared ks e n → ∀ {d : Nat} {tokens rest : List Token},
      kinds tokens = ks → d + n ≤ maxDepth → StopsLink .and (headKind rest) →
        Reads (readComparison d (tokens ++ rest)) e rest
  | _, _, _, .operand hoperand, _, _, rest, hks, hn, hrest =>
    reads_readComparison.mpr ⟨_, rest, operand_complete hoperand rest hks hn hrest.1,
      Or.inl ⟨hrest.2, rfl, rfl⟩⟩
  | _, _, _, .comparison op hleft hright, d, tokens, rest, hks, hn, hrest => by
    obtain ⟨front, t, back, rfl, hfront, ht, hback⟩ := kinds_eq_append_cons hks
    -- Behind the first operand stands a sign, so no parenthesis makes a call of it.
    have hl := operand_complete (d := d) hleft (t :: back ++ rest) hfront (by omega)
      (by show t.kind ≠ .leftParen; rw [ht]; nofun)
    have hr := operand_complete (d := d) hright rest hback (by omega) hrest.1
    refine reads_readComparison.mpr ⟨_, _, ?_, Or.inr ⟨t, _, op, _, rfl, ht, hr, hrest.2, rfl⟩⟩
    rw [List.append_assoc]
    exact hl

/-- A negation is read where its operand is, with one level for each not. -/
theorem negated_complete : ∀ {ks : List TokenKind} {e : Expr} {n : Nat},
    Negated ks e n → ∀ {d : Nat} {tokens rest : List Token},
      kinds tokens = ks → d + n ≤ maxDepth → StopsLink .and (headKind rest) →
        Reads (readNot d (tokens ++ rest)) e rest
  | _, _, _, .compared hcompared, d, tokens, rest, hks, hn, hrest => by
    refine reads_readNot.mpr (Or.inl ⟨?_, compared_complete hcompared hks hn hrest⟩)
    obtain ⟨k, ks', rfl, hk, -⟩ := compared_head hcompared
    obtain ⟨v, vs, rfl, hv, -⟩ := kinds_eq_cons hks
    show v.kind ≠ .not
    rw [hv]
    exact hk
  | _, _, _, .not hnegated, d, tokens, rest, hks, hn, hrest => by
    obtain ⟨t, ts, rfl, ht, hts⟩ := kinds_eq_cons hks
    have hread := negated_complete (d := d + 1) hnegated hts (by omega) hrest
    exact reads_readNot.mpr (Or.inr ⟨t, _, _, rfl, ht, by omega, rfl, hread⟩)

/-- A member of a chain is read where nothing follows that binds tighter than the chain. -/
theorem link_complete : ∀ {op : Connective} {ks : List TokenKind} {e : Expr} {n : Nat},
    Link op ks e n → ∀ {d : Nat} {tokens rest : List Token},
      kinds tokens = ks → d + n ≤ maxDepth → StopsLink op (headKind rest) →
        Reads (readLink op d (tokens ++ rest)) e rest
  | _, _, _, _, .and hnegated, _, _, _, hks, hn, hrest =>
    reads_readLink_and.mpr (negated_complete hnegated hks hn hrest)
  | _, _, _, _, .or hchain, _, _, rest, hks, hn, hrest => by
    obtain ⟨hparen, hcomparison, hand⟩ := hrest
    exact reads_readLink_or.mpr
      (chain_complete hchain rest hks hn ⟨hparen, hcomparison⟩ (extendChain_stops hand))

/-- From the start of a chain the readers get wherever they get from its end. -/
theorem chain_complete : ∀ {op : Connective} {ks : List TokenKind} {left : Expr} {i n : Nat},
    Chain op ks left i n → ∀ {d : Nat} {tokens : List Token} (rest : List Token)
      {rest' : List Token} {e : Expr}, kinds tokens = ks → d + n ≤ maxDepth →
        StopsLink op (headKind rest) → Reads (extendChain op (d + i) left rest) e rest' →
          Reads (readChain op d (tokens ++ rest)) e rest'
  | _, _, _, _, _, .first hlink, _, _, rest, _, _, hks, hn, hrest, hmore =>
    reads_readChain.mpr ⟨_, rest, link_complete hlink hks hn hrest, hmore⟩
  | op, _, _, _, _, .next (i := i) hchain hlink, d, tokens, rest, rest', e, hks, hn, hrest,
      hmore => by
    obtain ⟨front, t, back, rfl, hfront, ht, hback⟩ := kinds_eq_append_cons hks
    -- With the left part in hand the reader takes the connective and the last link, and goes on
    -- from there; so it gets from the end of the left part to the outcome.
    have hright := link_complete (d := d + i + 1) hlink hback (by omega) hrest
    have hstep : Reads (extendChain op (d + i) _ (t :: back ++ rest)) e rest' :=
      reads_extendChain.mpr (Or.inr ⟨t, _, _, rest, rfl, ht, by omega, hright, hmore⟩)
    rw [List.append_assoc]
    refine chain_complete hchain (t :: back ++ rest) hfront (by omega) ?_ hstep
    show StopsLink op t.kind
    rw [ht]
    exact stopsLink_connective op

end

end AccessRules.Rule.Grammar
