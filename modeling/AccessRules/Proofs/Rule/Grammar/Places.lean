import AccessRules.Proofs.Rule.Grammar.Impossible

/-!
# Reading does not see places

Readers ask for the kinds of tokens only. So two rows of the same kinds are the same rule, or they
are refused with the same fault at the same token, wherever that token stands in each
(`ofTokens_of_kinds`).
-/

namespace AccessRules.Rule.Grammar

variable {tokens tokens' : List Token}

theorem kinds_takeWhile (tokens : List Token) :
    kinds (tokens.takeWhile (·.kind ≠ .eof)) = (kinds tokens).takeWhile (· ≠ .eof) := by
  rw [kinds, kinds, List.takeWhile_map]
  rfl

/-- What is read as a rule is read as the same rule at other places. -/
theorem ofTokens_ok_of_kinds {e : Expr} (hkinds : kinds tokens' = kinds tokens)
    (h : Expr.ofTokens tokens = .ok e) : Expr.ofTokens tokens' = .ok e := by
  rw [ofTokens_eq_ok_iff, reads_readChain_iff, kinds_takeWhile] at h ⊢
  rw [hkinds]
  exact h

/-- **Reading does not see places.** Of two rows of the same kinds, ended by one end token, either
both are read as one rule, or both are refused with one fault, each at the same of its tokens. -/
theorem ofTokens_of_kinds (hends : EndsOnce tokens) (hkinds : kinds tokens' = kinds tokens) :
    match Expr.ofTokens tokens with
    | .ok e => Expr.ofTokens tokens' = .ok e
    | .error error => ∃ (i : Nat) (t t' : Token), tokens[i]? = some t ∧ tokens'[i]? = some t' ∧
        error.position = t.position ∧ Expr.ofTokens tokens' = .error ⟨t'.position, error.fault⟩ := by
  cases h : Expr.ofTokens tokens with
  | ok e => exact ofTokens_ok_of_kinds hkinds h
  | error error =>
    obtain ⟨used, t, rest, cause, rfl, hused, rfl, -, hstops⟩ := exists_stop hends h
    -- The other row has as many tokens before the one where reading stops.
    obtain ⟨used', more, rfl, hused', hmore⟩ :=
      List.map_eq_append_iff.mp (hkinds.trans List.map_append)
    obtain ⟨t', rest', rfl, ht', -⟩ := List.map_eq_cons_iff.mp hmore
    have hlength : used'.length = used.length := by
      have := congrArg List.length hused'
      simpa using this
    have hnone : .eof ∉ kinds used' := by
      rw [kinds, hused']
      exact hused
    have hrefused := ofTokens_of_stop hnone
      (fun last hlast => hstops used' last hused' (hlast.trans ht')) rest'
    refine ⟨used.length, t, t', by simp, by simp [← hlength], rfl, ?_⟩
    rw [hrefused, ht']

end AccessRules.Rule.Grammar
