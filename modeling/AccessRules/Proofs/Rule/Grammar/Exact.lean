import AccessRules.Proofs.Rule.Grammar.Complete

/-!
# Reading accepts exactly the grammar

> `ofTokens_eq_ok_iff_derives`: a row of tokens is read as the rule `e` exactly when the grammar
> derives `e` from the whole of it with a nesting of at most `maxDepth`, and in every other case
> reading ends with a syntax error.

Reading stops at the first end token, so a row in which more tokens stand behind one is left out.
-/

namespace AccessRules.Rule.Grammar

/-! ## No derivation uses an end token -/

/-- The token that the grammar has no use for. -/
theorem constant_ne_eof {k : TokenKind} {v : Literal} (h : Constant k v) : k ≠ .eof := by
  cases h <;> nofun

mutual

theorem bracketed_no_eof : ∀ {ks : List TokenKind} {items : List Literal} {n : Nat},
    Bracketed ks items n → .eof ∉ ks
  | _, _, _, .empty => by simp
  | _, _, _, .items h => by
    have := items_no_eof h
    simpa using this

theorem items_no_eof : ∀ {ks : List TokenKind} {vs : List Literal} {n : Nat},
    Items ks vs n → .eof ∉ ks
  | _, _, _, .one h => item_no_eof h
  | _, _, _, .more h h' => by
    have hfirst := item_no_eof h
    have hrest := items_no_eof h'
    simp [hfirst, hrest]

theorem item_no_eof : ∀ {ks : List TokenKind} {v : Literal} {n : Nat}, Item ks v n → .eof ∉ ks
  | _, _, _, .constant h => by
    have := constant_ne_eof h
    simpa using this.symm
  | _, _, _, .list h => bracketed_no_eof h

end

mutual

theorem operand_no_eof : ∀ {ks : List TokenKind} {e : Expr} {n : Nat}, Operand ks e n → .eof ∉ ks
  | _, _, _, .constant h => by
    have := constant_ne_eof h
    simpa using this.symm
  | _, _, _, .list h => bracketed_no_eof h
  | _, _, _, .path _ => by simp
  | _, _, _, .parens h => by
    have := chain_no_eof h
    simpa using this
  | _, _, _, .callEmpty _ => by simp
  | _, _, _, .call _ h => by
    have := args_no_eof h
    simpa using this

theorem args_no_eof : ∀ {ks : List TokenKind} {es : List Expr} {n : Nat}, Args ks es n → .eof ∉ ks
  | _, _, _, .one h => chain_no_eof h
  | _, _, _, .more h h' => by
    have hfirst := chain_no_eof h
    have hrest := args_no_eof h'
    simp [hfirst, hrest]

theorem compared_no_eof : ∀ {ks : List TokenKind} {e : Expr} {n : Nat},
    Compared ks e n → .eof ∉ ks
  | _, _, _, .operand h => operand_no_eof h
  | _, _, _, .comparison _ h h' => by
    have hleft := operand_no_eof h
    have hright := operand_no_eof h'
    simp [hleft, hright]

theorem negated_no_eof : ∀ {ks : List TokenKind} {e : Expr} {n : Nat}, Negated ks e n → .eof ∉ ks
  | _, _, _, .compared h => compared_no_eof h
  | _, _, _, .not h => by
    have := negated_no_eof h
    simpa using this

theorem link_no_eof : ∀ {op : Connective} {ks : List TokenKind} {e : Expr} {n : Nat},
    Link op ks e n → .eof ∉ ks
  | _, _, _, _, .and h => negated_no_eof h
  | _, _, _, _, .or h => chain_no_eof h

/-- No rule of the grammar has an end token in it, so none is among the tokens of a chain. -/
theorem chain_no_eof : ∀ {op : Connective} {ks : List TokenKind} {e : Expr} {i n : Nat},
    Chain op ks e i n → .eof ∉ ks
  | _, _, _, _, _, .first h => link_no_eof h
  | _, _, _, _, _, .next h h' => by
    have hleft := chain_no_eof h
    have hright := link_no_eof h'
    simp [hleft, hright]

end

/-! ## The whole row -/

/-- A row is read as a rule when the tokens before its end are read as a chain of `or` and nothing
is left. -/
theorem ofTokens_eq_ok_iff {tokens : List Token} {e : Expr} :
    Expr.ofTokens tokens = .ok e ↔
      Reads (readChain .or 0 (tokens.takeWhile (·.kind ≠ .eof))) e [] := by
  unfold Expr.ofTokens
  cases hread : readChain .or 0 (tokens.takeWhile (·.kind ≠ .eof)) with
  | error stop => simp
  | ok r =>
    obtain ⟨e', rest, hrest⟩ := r
    cases rest with
    | nil =>
      simp only [Except.ok.injEq, reads_ok, and_true]
      exact eq_comm
    | cons t ts => simp

/-- Tokens without an end among them all stand before the end. -/
theorem takeWhile_ne_eof_append {front : List Token} (h : .eof ∉ kinds front)
    (rest : List Token) :
    (front ++ rest).takeWhile (·.kind ≠ .eof) = front ++ rest.takeWhile (·.kind ≠ .eof) := by
  refine List.takeWhile_append_of_pos ?_
  intro t ht
  have hne : t.kind ≠ .eof := fun heq => h (heq ▸ List.mem_map_of_mem ht)
  simpa using hne

theorem takeWhile_ne_eof {tokens : List Token} (h : .eof ∉ kinds tokens) :
    tokens.takeWhile (·.kind ≠ .eof) = tokens := by
  have happend := takeWhile_ne_eof_append h []
  rw [List.append_nil, List.takeWhile_nil, List.append_nil] at happend
  exact happend

/-- Of tokens that end in their only end token, all but that one are taken. -/
theorem takeWhile_ne_eof_ended {front : List Token} {t : Token} (h : .eof ∉ kinds front)
    (ht : t.kind = .eof) : (front ++ [t]).takeWhile (·.kind ≠ .eof) = front := by
  rw [takeWhile_ne_eof_append h, List.takeWhile_cons_of_neg (by simp [ht]), List.append_nil]

/-- The tokens before the end, and the end itself if there is one. -/
theorem eq_or_eq_append_eof {tokens : List Token} (h : ∀ t ∈ tokens.dropLast, t.kind ≠ .eof) :
    .eof ∉ kinds tokens ∨
      ∃ front t, tokens = front ++ [t] ∧ .eof ∉ kinds front ∧ t.kind = .eof := by
  rcases List.eq_nil_or_concat tokens with rfl | ⟨front, t, rfl⟩
  · exact Or.inl (by simp)
  · rw [List.concat_eq_append, List.dropLast_concat] at h
    have hfront : .eof ∉ kinds front := by
      intro hmem
      obtain ⟨u, hu, hkind⟩ := List.mem_map.mp hmem
      exact h u hu hkind
    by_cases ht : t.kind = .eof
    · exact Or.inr ⟨front, t, List.concat_eq_append, hfront, ht⟩
    · refine Or.inl ?_
      rw [List.concat_eq_append, kinds, List.map_append, List.mem_append, not_or]
      exact ⟨hfront, by simpa using Ne.symm ht⟩

/-- Tokens before the end are read exactly as the chains that they derive. -/
theorem reads_readChain_iff {tokens : List Token} {e : Expr} :
    Reads (readChain .or 0 tokens) e [] ↔
      ∃ i n, Chain .or (kinds tokens) e i n ∧ n ≤ maxDepth := by
  constructor
  · intro h
    obtain ⟨used, i, n, hused, hderives, hn⟩ := readChain_sound (Nat.zero_le _) h
    rw [List.append_nil] at hused
    subst hused
    exact ⟨i, n, hderives, by omega⟩
  · intro h
    obtain ⟨i, n, hderives, hn⟩ := h
    -- Behind the whole row stands the end, which ends every chain.
    obtain ⟨hlink, hor⟩ := stopsChain_or (k := .eof) (Or.inr (Or.inr rfl))
    have hread := chain_complete (d := 0) hderives [] rfl (by omega) hlink (extendChain_stops hor)
    rw [List.append_nil] at hread
    exact hread

/-- **Reading accepts exactly the grammar.** Of a row whose only end token, if it has one, is the
last, a rule is read exactly when the whole row derives it within the nesting limit; otherwise the
row is refused with a syntax error. -/
theorem ofTokens_eq_ok_iff_derives {tokens : List Token}
    (h : ∀ t ∈ tokens.dropLast, t.kind ≠ .eof) :
    (∀ e, Expr.ofTokens tokens = .ok e ↔ ∃ n, Derives (kinds tokens) e n ∧ n ≤ maxDepth) ∧
    ((∃ error : SyntaxError, Expr.ofTokens tokens = .error error) ↔
      ¬∃ e n, Derives (kinds tokens) e n ∧ n ≤ maxDepth) := by
  have hok : ∀ e, Expr.ofTokens tokens = .ok e ↔
      ∃ n, Derives (kinds tokens) e n ∧ n ≤ maxDepth := by
    intro e
    rw [ofTokens_eq_ok_iff]
    rcases eq_or_eq_append_eof h with hnone | ⟨front, t, rfl, hfront, ht⟩
    · rw [takeWhile_ne_eof hnone, reads_readChain_iff]
      constructor
      · intro h
        obtain ⟨i, n, hchain, hn⟩ := h
        exact ⟨n, .bare hchain, hn⟩
      · intro h
        obtain ⟨n, hderives, hn⟩ := h
        generalize hks : kinds tokens = ks at hderives hnone
        -- There is no end among these tokens, so no derivation is closed by one.
        cases hderives with
        | bare hchain => exact ⟨_, n, hchain, hn⟩
        | ended _ => exact absurd (List.mem_append_right _ (List.mem_singleton_self _)) hnone
    · have hkinds : kinds (front ++ [t]) = kinds front ++ [.eof] := by
        rw [kinds, List.map_append, List.map_singleton, ht]
      rw [takeWhile_ne_eof_ended hfront ht, reads_readChain_iff, hkinds]
      constructor
      · intro h
        obtain ⟨i, n, hchain, hn⟩ := h
        exact ⟨n, .ended hchain, hn⟩
      · intro h
        obtain ⟨n, hderives, hn⟩ := h
        generalize hks : kinds front ++ [.eof] = ks at hderives
        cases hderives with
        | bare hchain =>
          -- a chain would use the end token
          rw [← hks] at hchain
          exact absurd (List.mem_append_right _ (List.mem_singleton_self _)) (chain_no_eof hchain)
        | ended hchain =>
          rw [List.append_left_inj] at hks
          rw [hks]
          exact ⟨_, n, hchain, hn⟩
  -- Whatever is not read is refused, so the second part is the negation of the first.
  refine ⟨hok, ?_⟩
  constructor
  · intro hrefused hderived
    obtain ⟨error, herror⟩ := hrefused
    obtain ⟨e, hderives⟩ := hderived
    rw [(hok e).mpr hderives] at herror
    cases herror
  · intro hnone
    cases hresult : Expr.ofTokens tokens with
    | error error => exact ⟨error, rfl⟩
    | ok e => exact absurd ⟨e, (hok e).mp hresult⟩ hnone

/-- The rule `not (a == 1 or b in [true])`, read from its tokens by way of its derivation. -/
theorem ofTokens_not_parens_or :
    let tokens : List Token := [⟨.not, 0⟩, ⟨.leftParen, 4⟩, ⟨.name "a", 5⟩, ⟨.comparison .eq, 7⟩,
      ⟨.integer 1, 10⟩, ⟨.connective .or, 12⟩, ⟨.name "b", 15⟩, ⟨.comparison .member, 17⟩,
      ⟨.leftBracket, 20⟩, ⟨.boolean true, 21⟩, ⟨.rightBracket, 25⟩, ⟨.rightParen, 26⟩, ⟨.eof, 27⟩]
    (∀ t ∈ tokens.dropLast, t.kind ≠ .eof) ∧
      Expr.ofTokens tokens = .ok (.not (.connective .or
        (.comparison .eq (.path "a") (.literal (.int 1)))
        (.comparison .member (.path "b") (.literal (.list [.bool true]))))) := by
  intro tokens
  have h : ∀ t ∈ tokens.dropLast, t.kind ≠ .eof := by decide
  refine ⟨h, ((ofTokens_eq_ok_iff_derives h).1 _).mpr ?_⟩
  have hleft := Compared.comparison .eq (.path "a") (.constant (.integer 1))
  have hlist := Bracketed.items (.one (.constant (.boolean true)))
  have hright := Compared.comparison .member (.path "b") (.list hlist)
  have hor := Chain.next (.first (.or (.first (.and (.compared hleft)))))
    (.or (.first (.and (.compared hright))))
  have hnot := Negated.not (.compared (.operand (.parens hor)))
  exact ⟨_, .ended (.first (.or (.first (.and hnot)))), by decide⟩

end AccessRules.Rule.Grammar
