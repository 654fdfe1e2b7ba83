import AccessRules.Proofs.Rule.Grammar.Step

/-!
# What is read is derived

Whatever a reader gives is derived from the tokens that it used up, and the nesting of the
derivation, counted from the depth at which the reader started, stays within `maxDepth`. A chain is
read with its left part in hand, so `extendChain_sound` takes a derivation of that part and extends
it; the readers of items and arguments likewise add to those read before.
-/

namespace AccessRules.Rule.Grammar

/-! ## Lists -/

mutual

/-- A list that was read is one of the grammar, and it nests no deeper than there was room for. -/
theorem readList_sound {d : Nat} {tokens rest : List Token} {items : List Literal}
    (hd : d ≤ maxDepth) (h : Reads (readList d tokens) items rest) :
    ∃ used n, tokens = used ++ rest ∧ Bracketed (.leftBracket :: kinds used) items (n + 1) ∧
      d + n ≤ maxDepth := by
  rcases reads_readList.mp h with ⟨t, rfl, ht, rfl⟩ | ⟨-, hitems⟩
  · refine ⟨[t], 0, rfl, ?_, hd⟩
    rw [kinds, List.map_singleton, ht]
    exact .empty
  · obtain ⟨used, close, vs, n, rfl, hclose, hderives, hn, rfl⟩ := readItems_sound hd hitems
    refine ⟨used ++ [close], n, by simp, ?_, hn⟩
    rw [kinds, List.map_append, List.map_singleton, hclose]
    exact .items hderives
termination_by 3 * tokens.length + 1

/-- Items that were read are items of the grammar in front of a closing bracket, behind those that
were there before. -/
theorem readItems_sound {d : Nat} {before all : List Literal} {tokens rest : List Token}
    (hd : d ≤ maxDepth) (h : Reads (readItems d before tokens) all rest) :
    ∃ used close vs n, tokens = used ++ close :: rest ∧ close.kind = .rightBracket ∧
      Items (kinds used) vs n ∧ d + n ≤ maxDepth ∧ all = before.reverse ++ vs := by
  obtain ⟨t, ts, v, u, us, htokens, hitem, hcase⟩ := reads_readItems.mp h
  have hlen : tokens.length = ts.length + 1 := congrArg List.length htokens
  have hshort : us.length < ts.length := hitem.bound
  obtain ⟨used, n, hused, hderives, hn⟩ := readItem_sound hd hitem
  rcases hcase with ⟨hcomma, hmore⟩ | ⟨hclose, rfl, rfl⟩
  · obtain ⟨used', close, vs, n', hused', hclose, hderives', hn', rfl⟩ := readItems_sound hd hmore
    refine ⟨used ++ u :: used', close, v :: vs, max n n', ?_, hclose, ?_, by omega, by simp⟩
    · rw [htokens, hused, hused']
      simp
    · rw [kinds, List.map_append, List.map_cons, hcomma]
      exact .more hderives hderives'
  · exact ⟨used, u, [v], n, htokens.trans hused, hclose, .one hderives, hn, by simp⟩
termination_by 3 * tokens.length

/-- An item that was read is one of the grammar: a constant, or a list one level deeper. -/
theorem readItem_sound {d : Nat} {t : Token} {ts rest : List Token} {v : Literal}
    (hd : d ≤ maxDepth) (h : Reads (readItem d t ts) v rest) :
    ∃ used n, t :: ts = used ++ rest ∧ Item (kinds used) v n ∧ d + n ≤ maxDepth := by
  rcases reads_readItem.mp h with ⟨ht, hdepth, items, rfl, hlist⟩ | ⟨hconstant, rfl⟩
  · obtain ⟨used, n, rfl, hderives, hn⟩ := readList_sound hdepth hlist
    refine ⟨t :: used, n + 1, rfl, ?_, by omega⟩
    rw [kinds, List.map_cons, ht]
    exact .list hderives
  · exact ⟨[t], 0, rfl, .constant hconstant, hd⟩
termination_by 3 * ts.length + 2

end

/-! ## Rules -/

mutual

/-- A chain that was read is one of the grammar: its first member, and then as many operators as
were read. -/
theorem readChain_sound {op : Connective} {d : Nat} {tokens rest : List Token} {e : Expr}
    (hd : d ≤ maxDepth) (h : Reads (readChain op d tokens) e rest) :
    ∃ used i n, tokens = used ++ rest ∧ Chain op (kinds used) e i n ∧ d + n ≤ maxDepth := by
  obtain ⟨left, mid, hlink, hmore⟩ := reads_readChain.mp h
  -- What stands behind the first member is shorter, which is what the recursion goes by.
  have hshort : mid.length < tokens.length := hlink.bound
  obtain ⟨used, n, hused, hderives, hn⟩ := readLink_sound hd hlink
  obtain ⟨used', i, n', hused', hderives', hn'⟩ :=
    extendChain_sound d (.first hderives) (Nat.add_zero d).symm hn hmore
  refine ⟨used ++ used', i, n', by rw [hused, hused', List.append_assoc], ?_, hn'⟩
  rw [kinds, List.map_append]
  exact hderives'
termination_by 9 * tokens.length + 2 * op.rank + 4

/-- A chain that started at `start` and has `i` operators so far goes on at depth `start + i`. -/
theorem extendChain_sound {op : Connective} (start : Nat) {d i n : Nat} {ks : List TokenKind}
    {left e : Expr} {tokens rest : List Token} (hleft : Chain op ks left i n)
    (hstart : d = start + i) (hn : start + n ≤ maxDepth)
    (h : Reads (extendChain op d left tokens) e rest) :
    ∃ used i' n', tokens = used ++ rest ∧ Chain op (ks ++ kinds used) e i' n' ∧
      start + n' ≤ maxDepth := by
  rcases reads_extendChain.mp h with
    ⟨-, rfl, rfl⟩ | ⟨t, ts, right, mid, htokens, ht, hdepth, hlink, hmore⟩
  · refine ⟨[], i, n, rfl, ?_, hn⟩
    rw [kinds, List.map_nil, List.append_nil]
    exact hleft
  · have hlen : tokens.length = ts.length + 1 := congrArg List.length htokens
    have hshort : mid.length < ts.length := hlink.bound
    -- The operator and the link behind it are at depth `start + i + 1`.
    obtain ⟨used, m, hused, hright, hm⟩ := readLink_sound hdepth hlink
    obtain ⟨used', i', n', hused', hderives, hn'⟩ :=
      extendChain_sound start (.next hleft hright) (by omega) (by omega) hmore
    refine ⟨t :: used ++ used', i', n', by simp [htokens, hused, hused'], ?_, hn'⟩
    rw [kinds, List.map_append, List.map_cons, ht]
    rw [List.append_assoc] at hderives
    exact hderives
termination_by 9 * tokens.length
decreasing_by
  · have := op.rank_le_one
    omega
  · omega

theorem readLink_sound {op : Connective} {d : Nat} {tokens rest : List Token} {e : Expr}
    (hd : d ≤ maxDepth) (h : Reads (readLink op d tokens) e rest) :
    ∃ used n, tokens = used ++ rest ∧ Link op (kinds used) e n ∧ d + n ≤ maxDepth := by
  match op with
  | .or =>
    obtain ⟨used, i, n, hused, hderives, hn⟩ := readChain_sound hd (reads_readLink_or.mp h)
    exact ⟨used, n, hused, .or hderives, hn⟩
  | .and =>
    obtain ⟨used, n, hused, hderives, hn⟩ := readNot_sound hd (reads_readLink_and.mp h)
    exact ⟨used, n, hused, .and hderives, hn⟩
termination_by 9 * tokens.length + 2 * op.rank + 3
decreasing_by
  all_goals
    simp only [Connective.rank]
    omega

theorem readNot_sound {d : Nat} {tokens rest : List Token} {e : Expr}
    (hd : d ≤ maxDepth) (h : Reads (readNot d tokens) e rest) :
    ∃ used n, tokens = used ++ rest ∧ Negated (kinds used) e n ∧ d + n ≤ maxDepth := by
  rcases reads_readNot.mp h with
    ⟨-, hcompared⟩ | ⟨t, ts, operand, htokens, ht, hdepth, rfl, hnot⟩
  · obtain ⟨used, n, hused, hderives, hn⟩ := readComparison_sound hd hcompared
    exact ⟨used, n, hused, .compared hderives, hn⟩
  · have hlen : tokens.length = ts.length + 1 := congrArg List.length htokens
    obtain ⟨used, n, hused, hderives, hn⟩ := readNot_sound hdepth hnot
    refine ⟨t :: used, n + 1, by rw [htokens, hused, List.cons_append], ?_, by omega⟩
    rw [kinds, List.map_cons, ht]
    exact .not hderives
termination_by 9 * tokens.length + 2

/-- A comparison that was read is one of the grammar, with one sign at most. -/
theorem readComparison_sound {d : Nat} {tokens rest : List Token} {e : Expr}
    (hd : d ≤ maxDepth) (h : Reads (readComparison d tokens) e rest) :
    ∃ used n, tokens = used ++ rest ∧ Compared (kinds used) e n ∧ d + n ≤ maxDepth := by
  obtain ⟨left, mid, hleft, hcase⟩ := reads_readComparison.mp h
  have hshort : mid.length < tokens.length := hleft.bound
  obtain ⟨used, n, hused, hderives, hn⟩ := readOperand_sound hd hleft
  rcases hcase with ⟨-, rfl, rfl⟩ | ⟨t, ts, op, right, hmid, ht, hright, -, rfl⟩
  · exact ⟨used, n, hused, .operand hderives, hn⟩
  · have hlen : mid.length = ts.length + 1 := congrArg List.length hmid
    obtain ⟨used', n', hused', hderives', hn'⟩ := readOperand_sound hd hright
    refine ⟨used ++ t :: used', max n n', by simp [hused, hmid, hused'], ?_, by omega⟩
    rw [kinds, List.map_append, List.map_cons, ht]
    exact .comparison op hderives hderives'
termination_by 9 * tokens.length + 1

/-- An operand that was read is one of the grammar: constant, path, call, group or list. -/
theorem readOperand_sound {d : Nat} {tokens rest : List Token} {e : Expr}
    (hd : d ≤ maxDepth) (h : Reads (readOperand d tokens) e rest) :
    ∃ used n, tokens = used ++ rest ∧ Operand (kinds used) e n ∧ d + n ≤ maxDepth := by
  match tokens with
  | [] => exact absurd h not_reads_readOperand_nil
  | t :: ts =>
    -- One case for each kind of first token, in the order in which the reader asks.
    by_cases hparen : t.kind = .leftParen
    · obtain ⟨hdepth, u, hinner, hu⟩ := (reads_readOperand_parens hparen).mp h
      obtain ⟨used, i, n, hused, hderives, hn⟩ := readChain_sound hdepth hinner
      refine ⟨t :: used ++ [u], n + 1, by simp [hused], ?_, by omega⟩
      rw [kinds, List.map_append, List.map_cons, List.map_singleton, hparen, hu]
      exact .parens hderives
    · by_cases hbracket : t.kind = .leftBracket
      · obtain ⟨hdepth, items, hlist, rfl⟩ := (reads_readOperand_list hbracket).mp h
        obtain ⟨used, n, hused, hderives, hn⟩ := readList_sound hdepth hlist
        refine ⟨t :: used, n + 1, by rw [hused, List.cons_append], ?_, by omega⟩
        rw [kinds, List.map_cons, hbracket]
        exact .list hderives
      · by_cases hname : ∃ name, t.kind = .name name
        · -- a path, or a call if a parenthesis opens behind the name
          obtain ⟨name, hname⟩ := hname
          rcases (reads_readOperand_name hname).mp h with
            ⟨-, rfl, rfl⟩ | ⟨u, us, args, hts, hu, hdepth, hargs, rfl⟩
          · refine ⟨[t], 0, rfl, ?_, hd⟩
            rw [kinds, List.map_singleton, hname]
            exact .path name
          · have hlen : ts.length = us.length + 1 := congrArg List.length hts
            obtain ⟨used, n, hused, hderives, hn⟩ := readArgs_sound name hdepth hargs
            refine ⟨t :: u :: used, n + 1, by simp [hts, hused], ?_, by omega⟩
            rw [kinds, List.map_cons, List.map_cons, hname, hu]
            exact hderives
        · obtain ⟨v, hconstant, rfl, rfl⟩ :=
            (reads_readOperand_constant hparen hbracket fun name hn => hname ⟨name, hn⟩).mp h
          exact ⟨[t], 0, rfl, .constant hconstant, hd⟩
termination_by 9 * tokens.length
decreasing_by
  all_goals
    simp only [Connective.rank, List.length_cons]
    omega

/-- Arguments that were read make a call of the grammar behind any name. -/
theorem readArgs_sound {d : Nat} {tokens rest : List Token} {args : List Expr} (name : String)
    (hd : d ≤ maxDepth) (h : Reads (readArgs d tokens) args rest) :
    ∃ used n, tokens = used ++ rest ∧
      Operand (.name name :: .leftParen :: kinds used) (.call name args) (n + 1) ∧
      d + n ≤ maxDepth := by
  rcases reads_readArgs.mp h with ⟨t, rfl, ht, rfl⟩ | ⟨-, hmore⟩
  · refine ⟨[t], 0, rfl, ?_, hd⟩
    rw [kinds, List.map_singleton, ht]
    exact .callEmpty name
  · obtain ⟨used, close, es, n, rfl, hclose, hderives, hn, rfl⟩ := readMoreArgs_sound hd hmore
    refine ⟨used ++ [close], n, by simp, ?_, hn⟩
    rw [kinds, List.map_append, List.map_singleton, hclose]
    exact .call name hderives
termination_by 9 * tokens.length + 8

theorem readMoreArgs_sound {d : Nat} {before all : List Expr} {tokens rest : List Token}
    (hd : d ≤ maxDepth) (h : Reads (readMoreArgs d before tokens) all rest) :
    ∃ used close es n, tokens = used ++ close :: rest ∧ close.kind = .rightParen ∧
      Args (kinds used) es n ∧ d + n ≤ maxDepth ∧ all = before.reverse ++ es := by
  obtain ⟨arg, u, us, harg, hcase⟩ := reads_readMoreArgs.mp h
  have hshort : us.length + 1 < tokens.length := harg.bound
  obtain ⟨used, i, n, hused, hderives, hn⟩ := readChain_sound hd harg
  rcases hcase with ⟨hcomma, hmore⟩ | ⟨hclose, rfl, rfl⟩
  · obtain ⟨used', close, es, n', hused', hclose, hderives', hn', rfl⟩ :=
      readMoreArgs_sound hd hmore
    refine ⟨used ++ u :: used', close, arg :: es, max n n', ?_, hclose, ?_, by omega, by simp⟩
    · rw [hused, hused']
      simp
    · rw [kinds, List.map_append, List.map_cons, hcomma]
      exact .more hderives hderives'
  · exact ⟨used, u, [arg], n, hused, hclose, .one hderives, hn, by simp⟩
termination_by 9 * tokens.length + 7
decreasing_by
  · simp only [Connective.rank]
    omega
  · omega

end

end AccessRules.Rule.Grammar
