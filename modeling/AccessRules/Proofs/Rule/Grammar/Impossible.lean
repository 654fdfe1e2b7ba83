import AccessRules.Proofs.Rule.Grammar.Lookahead
import AccessRules.Proofs.Rule.Grammar.Overflow
import AccessRules.Proofs.Rule.Grammar.Viable

/-!
# A syntax error points at the first impossible token

> `ofTokens_error_first_impossible`: the tokens before the one that an error points at are the start
> of a row that is accepted, and no row that goes on with that token is; every such row is refused
> with the same error.

The two halves come from the two modules before. What was used up before the stop can be completed
(`Viable`), so the error is not late; and nothing behind the token that the reader stopped at was
looked at (`Local`), so with that token in place it makes no difference what else follows.
-/

namespace AccessRules.Rule.Grammar

/-- An end token stands at the end of the row and nowhere else. -/
structure EndsOnce (tokens : List Token) : Prop where
  last : tokens.getLast?.map Token.kind = some .eof
  only : ∀ t ∈ tokens.dropLast, t.kind ≠ .eof

/-- A row that ends once is some tokens in front of its end token. -/
theorem EndsOnce.eq_append {tokens : List Token} (h : EndsOnce tokens) :
    ∃ front t, tokens = front ++ [t] ∧ .eof ∉ kinds front ∧ t.kind = .eof := by
  obtain ⟨t, hlast, ht⟩ := Option.map_eq_some_iff.mp h.last
  rcases eq_or_eq_append_eof h.only with hnone | hended
  · exact absurd (ht ▸ List.mem_map_of_mem (List.mem_of_getLast? hlast)) hnone
  · exact hended

/-- Reads a rule that nothing but the end may follow. -/
def wholeRule (tokens : List Token) : Outcome Expr :=
  (outcome (readChain .or 0 tokens)).andThen fun e rest =>
    if headKind rest = .eof then .ok (e, rest) else .error ⟨rest, .afterEnd⟩

/-- Whether a whole rule is read depends on the tokens up to the stop and the next kind only. -/
theorem local_wholeRule (tokens : List Token) : Local wholeRule tokens := by
  refine (local_readChain .or 0 tokens).andThen ?_
  intro e rest _
  refine local_ite ?_ ?_
  · intro _
    exact local_ok e rest
  · intro _
    exact local_error .afterEnd rest

/-- Where the reading of a whole rule stops, the tokens before the stop are the start of a rule. -/
theorem viable_wholeRule (tokens : List Token) :
    Viable (Fits 0 (ChainOf .or)) tokens (wholeRule tokens) := by
  refine (viable_readChain (Nat.zero_le _) tokens).andThen ?_
  intro e rest hread
  obtain ⟨used, i, n, rfl, hchain, hn⟩ :=
    readChain_sound (Nat.zero_le _) (outcome_eq_ok_iff.mp hread)
  by_cases hend : headKind rest = .eof
  · rw [if_pos hend]
    exact viable_ok _
  · -- The rule is complete where the token behind it is one too many.
    rw [if_neg hend]
    refine Viable.behind used (viable_error [] .afterEnd ?_)
    rw [List.append_nil]
    exact ⟨e, n, ⟨i, hchain⟩, hn⟩

/-! ## The whole row -/

theorem headKind_takeWhile (tokens : List Token) :
    headKind (tokens.takeWhile (·.kind ≠ .eof)) = headKind tokens := by
  cases tokens with
  | nil => rfl
  | cons t ts =>
    by_cases ht : t.kind = .eof
    · rw [List.takeWhile_cons_of_neg (by simp [ht])]
      exact ht.symm
    · rw [List.takeWhile_cons_of_pos (by simp [ht])]
      rfl

theorem eof_notMem_takeWhile (tokens : List Token) :
    .eof ∉ kinds (tokens.takeWhile (·.kind ≠ .eof)) := by
  intro h
  obtain ⟨t, ht, hkind⟩ := List.mem_map.mp h
  have hne := List.all_eq_true.mp List.all_takeWhile t ht
  simp [hkind] at hne

/-- A row is refused where reading the whole of it stops. -/
theorem ofTokens_eq_error_iff {tokens : List Token} {error : SyntaxError} :
    Expr.ofTokens tokens = .error error ↔
      ∃ stop, wholeRule (tokens.takeWhile (·.kind ≠ .eof)) = .error stop ∧
        stop.error (endPosition tokens) = error := by
  unfold Expr.ofTokens wholeRule
  cases hread : readChain .or 0 (tokens.takeWhile (·.kind ≠ .eof)) with
  | error stop => simp
  | ok r =>
    obtain ⟨e, rest, hrest⟩ := r
    cases rest with
    | nil => simp [headKind]
    | cons t ts =>
      -- What is left stands before the end, so it does not start with an end token.
      obtain ⟨used, i, n, hused, -⟩ :=
        readChain_sound (Nat.zero_le _) (outcome_eq_ok_iff.mp (congrArg outcome hread))
      have hne := eof_notMem_takeWhile tokens
      rw [hused] at hne
      have ht : t.kind ≠ .eof := by
        intro heq
        exact hne (by simp [heq])
      simp [headKind, ht]

/-- A stop at a token is reported at that token, and as that token. -/
theorem error_of_stop {used : List Token} (hused : .eof ∉ kinds used) (t : Token)
    (more : List Token) (cause : StopCause) :
    Stop.error (endPosition (used ++ t :: more)) ⟨(t :: more).takeWhile (·.kind ≠ .eof), cause⟩ =
      ⟨t.position, cause.fault t.kind⟩ := by
  by_cases ht : t.kind = .eof
  · -- No token is left before the end, and the end is found where `t` stands.
    have hnone : used.find? (·.kind = .eof) = none := by
      rw [List.find?_eq_none]
      intro u hu
      have hne : u.kind ≠ .eof := fun heq => hused (heq ▸ List.mem_map_of_mem hu)
      simpa using hne
    rw [List.takeWhile_cons_of_neg (by simp [ht]), endPosition, List.find?_append, hnone,
      Option.none_or, List.find?_cons_of_pos (by simp [ht]), ht]
    rfl
  · rw [List.takeWhile_cons_of_pos (by simp [ht])]
    rfl

/-- If reading stops behind `used` at every token of the kind of `t`, each row that goes on with `t`
there is refused at `t`. -/
theorem ofTokens_of_stop {used : List Token} {t : Token} {cause : StopCause}
    (hused : .eof ∉ kinds used)
    (hread : ∀ rest, headKind rest = t.kind → wholeRule (used ++ rest) = .error ⟨rest, cause⟩)
    (more : List Token) :
    Expr.ofTokens (used ++ t :: more) = .error ⟨t.position, cause.fault t.kind⟩ := by
  refine ofTokens_eq_error_iff.mpr ⟨_, ?_, error_of_stop hused t more cause⟩
  rw [takeWhile_ne_eof_append hused]
  exact hread _ (headKind_takeWhile (t :: more))

/-- Where a row is refused, reading stops at a token behind the start of a rule, and it does so
behind all tokens of the same kinds and in front of every token of that kind. -/
theorem exists_stop {tokens : List Token} {error : SyntaxError} (hends : EndsOnce tokens)
    (herror : Expr.ofTokens tokens = .error error) :
    ∃ used t rest cause, tokens = used ++ t :: rest ∧ .eof ∉ kinds used ∧
      error = ⟨t.position, cause.fault t.kind⟩ ∧
      (∃ missing, Fits 0 (ChainOf .or) (kinds used ++ missing)) ∧
      ∀ used' rest', kinds used' = kinds used → headKind rest' = t.kind →
        wholeRule (used' ++ rest') = .error ⟨rest', cause⟩ := by
  obtain ⟨front, last, rfl, hfront, hlast⟩ := hends.eq_append
  obtain ⟨stop, hstop, -⟩ := ofTokens_eq_error_iff.mp herror
  rw [takeWhile_ne_eof_ended hfront hlast] at hstop
  obtain ⟨used, rest, r, rfl, hread⟩ := local_wholeRule front
  have hr := hread used rest rfl rfl
  rw [hstop] at hr
  cases r with
  | ok e => cases hr
  | error cause =>
    cases hr
    -- The tokens before the stop are the start of a rule, and they are those that were used up.
    obtain ⟨used', missing, heq, hfits⟩ := viable_wholeRule _ _ hstop
    obtain rfl := List.append_cancel_right heq
    -- Behind `used` stands the first token that is left, or else the end token.
    obtain ⟨t, more, hmore, ht⟩ : ∃ t more, rest ++ [last] = t :: more ∧ headKind rest = t.kind := by
      cases rest with
      | nil => exact ⟨last, [], rfl, hlast.symm⟩
      | cons u us => exact ⟨u, us ++ [last], rfl, rfl⟩
    have hused : .eof ∉ kinds used := by
      intro h
      rw [kinds, List.map_append] at hfront
      exact hfront (List.mem_append_left _ h)
    have hstops : ∀ used' rest', kinds used' = kinds used → headKind rest' = t.kind →
        wholeRule (used' ++ rest') = .error ⟨rest', cause⟩ :=
      fun used' rest' hkinds hrest' => hread used' rest' hkinds (hrest'.trans ht.symm)
    rw [List.append_assoc, hmore] at herror ⊢
    have hrefused := ofTokens_of_stop hused (fun rest' => hstops used rest' rfl) more
    exact ⟨used, t, more, cause, rfl, hused, Except.error.inj (herror.symm.trans hrefused),
      ⟨missing, hfits⟩, hstops⟩

/-- Where a row is refused, it is refused at a token behind the start of a rule, and so is each row
that is the same up to that token. -/
theorem exists_refused_at {tokens : List Token} {error : SyntaxError} (hends : EndsOnce tokens)
    (herror : Expr.ofTokens tokens = .error error) :
    ∃ used t rest, tokens = used ++ t :: rest ∧ error.position = t.position ∧
      (∃ missing, Fits 0 (ChainOf .or) (kinds used ++ missing)) ∧
      ∀ more, Expr.ofTokens (used ++ t :: more) = .error error := by
  obtain ⟨used, t, rest, cause, rfl, hused, rfl, hfits, hstops⟩ := exists_stop hends herror
  have hrefused := ofTokens_of_stop hused fun rest' => hstops used rest' rfl
  exact ⟨used, t, rest, rfl, rfl, hfits, hrefused⟩

/-- The start of a rule within the nesting limit is the start of a row that is accepted. -/
theorem exists_accepted {used : List Token} {missing : List TokenKind}
    (h : Fits 0 (ChainOf .or) (kinds used ++ missing)) :
    ∃ accepted e, EndsOnce accepted ∧ Expr.ofTokens accepted = .ok e ∧ used <+: accepted := by
  obtain ⟨e, n, ⟨i, hchain⟩, hn⟩ := h
  -- What is missing is put in at any places, since only its kinds matter.
  let front := used ++ missing.map fun k => (⟨k, 0⟩ : Token)
  have hkinds : kinds front = kinds used ++ missing := by
    simp [front, Function.comp_def]
  rw [← hkinds] at hchain
  refine ⟨front ++ [⟨.eof, 0⟩], e, ⟨by simp, ?_⟩, (ofTokens_of_chain hchain).1 (by omega), ?_⟩
  · intro t ht hkind
    rw [List.dropLast_concat] at ht
    exact chain_no_eof hchain (hkind ▸ List.mem_map_of_mem ht)
  · exact ⟨_, (List.append_assoc ..).symm⟩

/-- **A syntax error points at the first impossible token.** Where a row is refused, the tokens
before the one that the error points at are the start of a row that is accepted. If the token is not
the end, no row that goes on with it is accepted; if it is, then the row itself is not. In both cases
every row that is the same up to and with this token is refused with the same error. -/
theorem ofTokens_error_first_impossible {tokens : List Token} {error : SyntaxError}
    (hends : EndsOnce tokens) (herror : Expr.ofTokens tokens = .error error) :
    ∃ i t, tokens[i]? = some t ∧ error.position = t.position ∧
      (∃ accepted e, EndsOnce accepted ∧ Expr.ofTokens accepted = .ok e ∧
        tokens.take i <+: accepted) ∧
      ((t.kind ≠ .eof ∧
          ∀ accepted e, Expr.ofTokens accepted = .ok e → ¬tokens.take (i + 1) <+: accepted) ∨
        (t.kind = .eof ∧ ∀ e, Expr.ofTokens tokens ≠ .ok e)) ∧
      ∀ other, tokens.take (i + 1) <+: other → Expr.ofTokens other = .error error := by
  obtain ⟨used, t, rest, rfl, hposition, ⟨missing, hfits⟩, hrefused⟩ :=
    exists_refused_at hends herror
  have htake : (used ++ t :: rest).take used.length = used := List.take_left
  have htake' : (used ++ t :: rest).take (used.length + 1) = used ++ [t] := by
    rw [List.take_length_add_append]
    rfl
  -- The refusal at `t` depends on nothing behind it.
  have hother : ∀ other, (used ++ t :: rest).take (used.length + 1) <+: other →
      Expr.ofTokens other = .error error := by
    intro other h
    rw [htake'] at h
    obtain ⟨more, rfl⟩ := h
    rw [List.append_assoc]
    exact hrefused more
  refine ⟨used.length, t, by simp, hposition, ?_, ?_, hother⟩
  · rw [htake]
    exact exists_accepted hfits
  · by_cases ht : t.kind = .eof
    · refine Or.inr ⟨ht, ?_⟩
      intro e he
      rw [herror] at he
      cases he
    · refine Or.inl ⟨ht, ?_⟩
      intro accepted e haccepted hshared
      rw [hother accepted hshared] at haccepted
      cases haccepted

/-- In `f(1, [2, x])` it is the name: what stands before it can be completed, and whatever follows
`f(1, [2, x` is refused for the same reason. -/
theorem ofTokens_error_name_in_list :
    let tokens : List Token := [⟨.name "f", 0⟩, ⟨.leftParen, 1⟩, ⟨.integer 1, 2⟩, ⟨.comma, 3⟩,
      ⟨.leftBracket, 5⟩, ⟨.integer 2, 6⟩, ⟨.comma, 7⟩, ⟨.name "x", 9⟩, ⟨.rightBracket, 10⟩,
      ⟨.rightParen, 11⟩, ⟨.eof, 12⟩]
    let error : SyntaxError := ⟨9, .unexpectedToken (.name "x") .listItem⟩
    EndsOnce tokens ∧ Expr.ofTokens tokens = .error error ∧
      (∃ accepted e, Expr.ofTokens accepted = .ok e ∧ tokens.take 7 <+: accepted) ∧
      ∀ other, tokens.take 8 <+: other → Expr.ofTokens other = .error error := by
  intro tokens error
  have hends : EndsOnce tokens := ⟨by decide, by decide⟩
  have herror : Expr.ofTokens tokens = .error error := by with_unfolding_all rfl
  obtain ⟨i, t, hget, hposition, ⟨accepted, e, -, hok, hshared⟩, -, hother⟩ :=
    ofTokens_error_first_impossible hends herror
  -- The place of the error is that of no other token.
  have hi : i = 7 := by
    obtain ⟨hlt, rfl⟩ := List.getElem?_eq_some_iff.mp hget
    have hplaces : ∀ j : Fin 11, 9 = tokens[j].position → j.val = 7 := by decide
    exact hplaces ⟨i, hlt⟩ hposition
  subst hi
  exact ⟨hends, herror, ⟨accepted, e, hok, hshared⟩, hother⟩

end AccessRules.Rule.Grammar
