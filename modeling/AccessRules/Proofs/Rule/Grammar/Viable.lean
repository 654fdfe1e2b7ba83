import AccessRules.Proofs.Rule.Grammar.Sound

/-!
# What stands before a stop can be completed

A reader that stops has used up a row of tokens that some more tokens would complete: it never goes
on behind a token that nothing could follow. `Viable` says so of an outcome, and the completion is
found where the reader stands: a part that is open is closed, an operand that is missing is `null`,
and a row that was already complete is left as it is. None of this nests any deeper than the reader
was when it stopped, so the completed row keeps to `maxDepth` as well.
-/

namespace AccessRules.Rule.Grammar

variable {α β : Type}

/-- The kinds derive something that a reader at depth `d` has room for. -/
def Fits (d : Nat) (derives : List TokenKind → α → Nat → Prop) (ks : List TokenKind) : Prop :=
  ∃ a n, derives ks a n ∧ d + n ≤ maxDepth

/-- A chain with some number of operators. -/
def ChainOf (op : Connective) (ks : List TokenKind) (e : Expr) (n : Nat) : Prop :=
  ∃ i, Chain op ks e i n

/-- If reading `tokens` came to a stop, the tokens before it are the start of a row with `P`. -/
def Viable (P : List TokenKind → Prop) (tokens : List Token) (o : Outcome α) : Prop :=
  ∀ stop, o = .error stop →
    ∃ used missing, tokens = used ++ stop.rest ∧ P (kinds used ++ missing)

variable {P Q : List TokenKind → Prop} {tokens rest : List Token}

/-! ## Putting readers together -/

theorem viable_ok (r : α × List Token) : Viable P tokens (.ok r) := by
  intro _ h
  cases h

/-- A stop at the first token. -/
theorem viable_error (missing : List TokenKind) (cause : StopCause) (h : P missing) :
    Viable P tokens (.error ⟨tokens, cause⟩ : Outcome α) := by
  intro stop hstop
  cases hstop
  exact ⟨[], missing, rfl, h⟩

/-- What completes a part is followed by what completes the whole. -/
theorem Viable.extend {o : Outcome α} (h : Viable P tokens o) (more : List TokenKind)
    (hPQ : ∀ ks, P ks → Q (ks ++ more)) : Viable Q tokens o := by
  intro stop hstop
  obtain ⟨used, missing, htokens, hP⟩ := h stop hstop
  refine ⟨used, missing ++ more, htokens, ?_⟩
  rw [← List.append_assoc]
  exact hPQ _ hP

/-- What completes a stricter row completes a laxer one. -/
theorem Viable.mono {o : Outcome α} (h : Viable P tokens o) (hPQ : ∀ ks, P ks → Q ks) :
    Viable Q tokens o := by
  refine h.extend [] ?_
  intro ks hP
  rw [List.append_nil]
  exact hPQ ks hP

/-- Reading on behind some tokens. -/
theorem Viable.behind {o : Outcome α} (front : List Token)
    (h : Viable (fun ks => P (kinds front ++ ks)) rest o) : Viable P (front ++ rest) o := by
  intro stop hstop
  obtain ⟨used, missing, rfl, hP⟩ := h stop hstop
  refine ⟨front ++ used, missing, (List.append_assoc ..).symm, ?_⟩
  rw [kinds, List.map_append, List.append_assoc]
  exact hP

/-- Reading on behind one token. -/
theorem Viable.tail {o : Outcome α} {k : TokenKind}
    (h : Viable (fun ks => P (k :: ks)) tokens.tail o) (hhead : headKind tokens = k)
    (hk : k ≠ .eof) : Viable P tokens o := by
  obtain ⟨t, htokens, rfl⟩ := eq_cons_of_headKind hhead hk
  rw [htokens]
  exact Viable.behind [t] h

/-- A stop is in the first reader or, behind what that one read, in the second. -/
theorem Viable.andThen {o : Outcome α} {next : α → List Token → Outcome β} (h : Viable P tokens o)
    (hnext : ∀ a rest, o = .ok (a, rest) → Viable P tokens (next a rest)) :
    Viable P tokens (o.andThen next) := by
  rcases o with stop | ⟨a, rest⟩
  · exact fun stop' hstop => h stop' (by cases hstop; rfl)
  · exact hnext a rest rfl

/-- Where there is no room for a deeper part, something shallower would have done. -/
theorem viable_nested {d : Nat} {inner : Outcome α} (missing : List TokenKind) (h : P missing)
    (hinner : d < maxDepth → Viable P tokens inner) : Viable P tokens (nested d tokens inner) := by
  unfold nested
  by_cases hdepth : d < maxDepth
  · rw [if_pos hdepth]
    exact hinner hdepth
  · rw [if_neg hdepth]
    exact viable_error missing .tooDeep h

/-- A list that is closed at once has no stop in it. -/
theorem viable_orEmpty {close : TokenKind} {first : Outcome (List α)} (h : Viable P tokens first) :
    Viable P tokens (orEmpty close tokens first) := by
  unfold orEmpty
  by_cases hclose : headKind tokens = close
  · rw [if_pos hclose]
    exact viable_ok _
  · rw [if_neg hclose]
    exact h

/-- Behind a member the list can be closed, and a comma wants one more. -/
theorem viable_listed {close : TokenKind} {all : List α} {more : List Token → Outcome (List α)}
    (h : P [close])
    (hmore : headKind tokens = .comma →
      Viable (fun ks => P (.comma :: ks)) tokens.tail (more tokens.tail)) :
    Viable P tokens (listed close all more tokens) := by
  unfold listed
  by_cases hcomma : headKind tokens = .comma
  · rw [if_pos hcomma]
    exact (hmore hcomma).tail hcomma (by simp)
  · rw [if_neg hcomma]
    by_cases hclose : headKind tokens = close
    · rw [if_pos hclose]
      exact viable_ok _
    · rw [if_neg hclose]
      exact viable_error [close] _ h

/-! ## Lists -/

/-- An item in front of a row is one of the grammar. -/
theorem frontItem_sound {d : Nat} {v : Literal} (hd : d ≤ maxDepth)
    (h : frontItem d tokens = .ok (v, rest)) :
    ∃ used n, tokens = used ++ rest ∧ Item (kinds used) v n ∧ d + n ≤ maxDepth := by
  cases tokens with
  | nil => cases h
  | cons t ts => exact readItem_sound hd (outcome_eq_ok_iff.mp h)

mutual

/-- Where the reading of a list stops, more items and a bracket would have completed it. -/
theorem viable_readList {d : Nat} (hd : d ≤ maxDepth) (tokens : List Token) :
    Viable (Fits d fun ks items n => Bracketed (.leftBracket :: ks) items (n + 1)) tokens
      (outcome (readList d tokens)) := by
  rw [outcome_readList]
  refine viable_orEmpty ((viable_readItems hd [] tokens).mono ?_)
  intro ks h
  obtain ⟨items, rfl, vs, n, hitems, hn⟩ := h
  exact ⟨vs, n, .items hitems, hn⟩
termination_by 3 * tokens.length + 2

/-- Where the reading of items stops, an item or the closing bracket is missing. -/
theorem viable_readItems {d : Nat} (hd : d ≤ maxDepth) (before : List Literal) (tokens : List Token) :
    Viable (fun ks => ∃ items, ks = items ++ [.rightBracket] ∧ Fits d Items items) tokens
      (outcome (readItems d before tokens)) := by
  rw [outcome_readItems]
  refine Viable.andThen ?_ ?_
  · refine (viable_frontItem hd tokens).extend [.rightBracket] ?_
    intro ks h
    obtain ⟨v, n, hitem, hn⟩ := h
    exact ⟨ks, rfl, [v], n, .one hitem, hn⟩
  · intro v rest hread
    have hshort := frontItem_bound hread
    obtain ⟨used, n, rfl, hitem, hn⟩ := frontItem_sound hd hread
    -- The closing bracket would make a list of this item; behind a comma the others are a list of
    -- their own, which the same bracket closes.
    refine Viable.behind used (viable_listed ?_ ?_)
    · exact ⟨kinds used, rfl, [v], n, .one hitem, hn⟩
    · intro hcomma
      have htail := tail_length_lt hcomma nofun
      refine (viable_readItems hd (v :: before) rest.tail).mono ?_
      intro ks h
      obtain ⟨items, rfl, vs, n', hitems, hn'⟩ := h
      exact ⟨kinds used ++ .comma :: items, by simp, v :: vs, max n n', .more hitem hitems, by omega⟩
termination_by 3 * tokens.length + 1

/-- In the place of an item that cannot be read, a constant would do, and an open list could be
closed. -/
theorem viable_frontItem {d : Nat} (hd : d ≤ maxDepth) (tokens : List Token) :
    Viable (Fits d Item) tokens (frontItem d tokens) := by
  -- A null fits wherever an item does, since it takes no level.
  have hnull : Fits d Item [.null] := ⟨.null, 0, .constant .null, hd⟩
  rw [frontItem_eq]
  by_cases hopen : headKind tokens = .leftBracket
  · rw [if_pos hopen]
    refine viable_nested [.null] hnull ?_
    intro hdepth
    have htail := tail_length_lt hopen nofun
    refine Viable.andThen ?_ ?_
    · refine Viable.tail ?_ hopen nofun
      refine (viable_readList hdepth tokens.tail).mono ?_
      intro ks h
      obtain ⟨items, n, hitems, hn⟩ := h
      exact ⟨.list items, n + 1, .list hitems, by omega⟩
    · intro items rest _
      exact viable_ok _
  · rw [if_neg hopen]
    cases (headKind tokens).literal? with
    | some v => exact viable_ok _
    | none => exact viable_error [.null] _ hnull
termination_by 3 * tokens.length

end

/-! ## Rules -/

mutual

/-- Where the reading of a chain stops, its last member could have been completed. -/
theorem viable_readChain {op : Connective} {d : Nat} (hd : d ≤ maxDepth) (tokens : List Token) :
    Viable (Fits d (ChainOf op)) tokens (outcome (readChain op d tokens)) := by
  rw [outcome_readChain]
  refine Viable.andThen ?_ ?_
  · refine (viable_readLink hd tokens).mono ?_
    intro ks h
    obtain ⟨e, n, hlink, hn⟩ := h
    exact ⟨e, n, ⟨0, .first hlink⟩, hn⟩
  · intro left rest hread
    have hshort := outcome_bound hread
    -- The member that was read is a chain by itself, which what follows goes on with.
    obtain ⟨used, n, rfl, hlink, hn⟩ := readLink_sound hd (outcome_eq_ok_iff.mp hread)
    refine Viable.behind used ?_
    exact viable_extendChain d (.first hlink) (Nat.add_zero d).symm hn rest
termination_by 9 * tokens.length + 2 * op.rank + 4

/-- A chain that started at `start` and has `i` operators so far can end where it is. -/
theorem viable_extendChain {op : Connective} (start : Nat) {d i n : Nat} {ks : List TokenKind}
    {left : Expr} (hleft : Chain op ks left i n) (hstart : d = start + i)
    (hn : start + n ≤ maxDepth) (tokens : List Token) :
    Viable (fun ks' => Fits start (ChainOf op) (ks ++ ks')) tokens
      (outcome (extendChain op d left tokens)) := by
  rw [outcome_extendChain]
  by_cases hop : headKind tokens = .connective op
  · rw [if_pos hop]
    -- At the limit it is the connective that is impossible, and the chain is complete without it.
    refine viable_nested [] ?_ ?_
    · rw [List.append_nil]
      exact ⟨left, n, ⟨i, hleft⟩, hn⟩
    · intro hdepth
      have htail := tail_length_lt hop nofun
      refine Viable.tail ?_ hop nofun
      refine Viable.andThen ?_ ?_
      · refine (viable_readLink hdepth tokens.tail).mono ?_
        intro ks' h
        obtain ⟨right, m, hright, hm⟩ := h
        exact ⟨_, _, ⟨i + 1, .next hleft hright⟩, by omega⟩
      · intro right rest hread
        have hshort := outcome_bound hread
        obtain ⟨used, m, hused, hright, hm⟩ := readLink_sound hdepth (outcome_eq_ok_iff.mp hread)
        rw [hused]
        refine Viable.behind used ?_
        have hmore := viable_extendChain start (.next hleft hright) (d := d + 1) (by omega)
          (by omega) rest
        refine hmore.mono ?_
        intro ks' h
        rw [List.append_assoc] at h
        exact h
  · rw [if_neg hop]
    exact viable_ok _
termination_by 9 * tokens.length
decreasing_by
  · have := op.rank_le_one
    omega
  · omega

theorem viable_readLink {op : Connective} {d : Nat} (hd : d ≤ maxDepth) (tokens : List Token) :
    Viable (Fits d (Link op)) tokens (outcome (readLink op d tokens)) := by
  match op with
  | .or =>
    rw [readLink]
    refine (viable_readChain hd tokens).mono ?_
    intro ks h
    obtain ⟨e, n, ⟨i, hchain⟩, hn⟩ := h
    exact ⟨e, n, .or hchain, hn⟩
  | .and =>
    rw [readLink]
    refine (viable_readNot hd tokens).mono ?_
    intro ks h
    obtain ⟨e, n, hnegated, hn⟩ := h
    exact ⟨e, n, .and hnegated, hn⟩
termination_by 9 * tokens.length + 2 * op.rank + 3
decreasing_by
  all_goals
    simp only [Connective.rank]
    omega

/-- Where the reading of a negation stops, its operand is missing or incomplete, and a constant
needs no further level. -/
theorem viable_readNot {d : Nat} (hd : d ≤ maxDepth) (tokens : List Token) :
    Viable (Fits d Negated) tokens (outcome (readNot d tokens)) := by
  rw [outcome_readNot]
  by_cases hnot : headKind tokens = .not
  · rw [if_pos hnot]
    -- At the limit `null` could stand in the place of the `not`.
    refine viable_nested [.null] ?_ ?_
    · exact ⟨_, 0, .compared (.operand (.constant .null)), hd⟩
    · intro hdepth
      have htail := tail_length_lt hnot nofun
      refine Viable.andThen ?_ fun e rest _ => viable_ok _
      refine Viable.tail ?_ hnot nofun
      refine (viable_readNot hdepth tokens.tail).mono ?_
      intro ks h
      obtain ⟨e, n, hnegated, hn⟩ := h
      exact ⟨.not e, n + 1, .not hnegated, by omega⟩
  · rw [if_neg hnot]
    refine (viable_readComparison hd tokens).mono ?_
    intro ks h
    obtain ⟨e, n, hcompared, hn⟩ := h
    exact ⟨e, n, .compared hcompared, hn⟩
termination_by 9 * tokens.length + 2

/-- Where the reading of a comparison stops, an operand is incomplete; a second sign stops behind a
row that is already complete. -/
theorem viable_readComparison {d : Nat} (hd : d ≤ maxDepth) (tokens : List Token) :
    Viable (Fits d Compared) tokens (outcome (readComparison d tokens)) := by
  rw [outcome_readComparison]
  refine Viable.andThen ?_ ?_
  · refine (viable_readOperand hd tokens).mono ?_
    intro ks h
    obtain ⟨e, n, hoperand, hn⟩ := h
    exact ⟨e, n, .operand hoperand, hn⟩
  · intro left rest hread
    have hshort := outcome_bound hread
    obtain ⟨used, n, rfl, hleft, hn⟩ := readOperand_sound hd (outcome_eq_ok_iff.mp hread)
    refine Viable.behind used ?_
    cases hop : (headKind rest).comparison? with
    | none => exact viable_ok _
    | some op =>
      have hsign := comparison?_eq_some_iff.mp hop
      have htail := tail_length_lt hsign nofun
      refine Viable.tail ?_ hsign nofun
      refine Viable.andThen ?_ ?_
      · refine (viable_readOperand hd rest.tail).mono ?_
        intro ks h
        obtain ⟨right, n', hright, hn'⟩ := h
        exact ⟨_, _, .comparison op hleft hright, by omega⟩
      · intro right last hread'
        obtain ⟨used', n', hused', hright, hn'⟩ :=
          readOperand_sound hd (outcome_eq_ok_iff.mp hread')
        cases (headKind last).comparison? with
        | none => exact viable_ok _
        | some op' =>
          -- The comparison is complete; it is the second sign that is too many.
          rw [hused']
          refine Viable.behind used' (viable_error [] .chained ?_)
          rw [List.append_nil]
          exact ⟨_, _, .comparison op hleft hright, by omega⟩
termination_by 9 * tokens.length + 1

/-- Where the reading of an operand stops, a constant would do in its place, and what it has opened
could be closed. -/
theorem viable_readOperand {d : Nat} (hd : d ≤ maxDepth) (tokens : List Token) :
    Viable (Fits d Operand) tokens (outcome (readOperand d tokens)) := by
  -- Where an operand is missing, or may go no deeper, `null` would have done.
  have hnull : Fits d Operand [.null] := ⟨_, 0, .constant .null, hd⟩
  rw [outcome_readOperand]
  cases hkind : headKind tokens with
  | leftParen =>
    refine viable_nested [.null] hnull ?_
    intro hdepth
    have htail := tail_length_lt hkind nofun
    refine Viable.tail ?_ hkind nofun
    refine Viable.andThen ?_ ?_
    · -- What completes the chain inside is followed by the parenthesis that closes the group.
      refine (viable_readChain hdepth tokens.tail).extend [.rightParen] ?_
      intro ks h
      obtain ⟨e, n, ⟨i, hchain⟩, hn⟩ := h
      exact ⟨e, n + 1, .parens hchain, by omega⟩
    · intro e rest hread
      obtain ⟨used, i, n, hused, hchain, hn⟩ :=
        readChain_sound hdepth (outcome_eq_ok_iff.mp hread)
      refine Viable.andThen ?_ fun _ last _ => viable_ok _
      -- The chain inside is complete; only its parenthesis can be missing.
      rw [outcome_readToken .rightParen nofun]
      by_cases hclose : headKind rest = .rightParen
      · rw [if_pos hclose]
        exact viable_ok _
      · rw [if_neg hclose, hused]
        refine Viable.behind used (viable_error [.rightParen] _ ?_)
        exact ⟨e, n + 1, .parens hchain, by omega⟩
  | leftBracket =>
    refine viable_nested [.null] hnull ?_
    intro hdepth
    refine Viable.andThen ?_ fun items rest _ => viable_ok _
    refine Viable.tail ?_ hkind nofun
    refine (viable_readList hdepth tokens.tail).mono ?_
    intro ks h
    obtain ⟨items, n, hitems, hn⟩ := h
    exact ⟨_, n + 1, .list hitems, by omega⟩
  | name name =>
    have htail := tail_length_lt hkind nofun
    dsimp only
    by_cases hopen : headKind tokens.tail = .leftParen
    · rw [if_pos hopen]
      refine Viable.tail ?_ hkind nofun
      -- Without the call the name is a path.
      refine viable_nested [] ⟨_, 0, .path name, hd⟩ ?_
      intro hdepth
      have htail' := tail_length_lt hopen nofun
      refine Viable.andThen ?_ fun args rest _ => viable_ok _
      refine Viable.tail ?_ hopen nofun
      refine (viable_readArgs name hdepth tokens.tail.tail).mono ?_
      intro ks h
      obtain ⟨args, n, hcall, hn⟩ := h
      exact ⟨_, n + 1, hcall, by omega⟩
    · rw [if_neg hopen]
      exact viable_ok _
  | integer | float | string | boolean | null => exact viable_ok _
  | _ => exact viable_error [.null] _ hnull
termination_by 9 * tokens.length
decreasing_by
  all_goals
    have := Connective.rank_le_one .or
    omega

/-- Where the reading of arguments stops, more of them and a parenthesis would have completed the
call. -/
theorem viable_readArgs {d : Nat} (name : String) (hd : d ≤ maxDepth) (tokens : List Token) :
    Viable (Fits d fun ks args n =>
      Operand (.name name :: .leftParen :: ks) (.call name args) (n + 1)) tokens
      (outcome (readArgs d tokens)) := by
  rw [outcome_readArgs]
  -- An empty call is closed at once, so a stop is one among the arguments.
  refine viable_orEmpty ((viable_readMoreArgs hd [] tokens).mono ?_)
  intro ks h
  obtain ⟨front, rfl, args, n, hargs, hn⟩ := h
  exact ⟨args, n, .call name hargs, hn⟩
termination_by 9 * tokens.length + 8

theorem viable_readMoreArgs {d : Nat} (hd : d ≤ maxDepth) (before : List Expr)
    (tokens : List Token) :
    Viable (fun ks => ∃ front, ks = front ++ [.rightParen] ∧ Fits d Args front) tokens
      (outcome (readMoreArgs d before tokens)) := by
  rw [outcome_readMoreArgs]
  refine Viable.andThen ?_ ?_
  · refine (viable_readChain hd tokens).extend [.rightParen] ?_
    intro ks h
    obtain ⟨e, n, ⟨i, hchain⟩, hn⟩ := h
    exact ⟨ks, rfl, [e], n, .one hchain, hn⟩
  · intro arg rest hread
    have hshort := outcome_bound hread
    obtain ⟨used, i, n, rfl, hchain, hn⟩ := readChain_sound hd (outcome_eq_ok_iff.mp hread)
    -- As with items: the parenthesis closes the call behind this argument, or behind those that
    -- follow the comma.
    refine Viable.behind used (viable_listed ?_ ?_)
    · exact ⟨kinds used, rfl, [arg], n, .one hchain, hn⟩
    · intro hcomma
      have htail := tail_length_lt hcomma nofun
      refine (viable_readMoreArgs hd (arg :: before) rest.tail).mono ?_
      intro ks h
      obtain ⟨front, rfl, args, n', hargs, hn'⟩ := h
      exact ⟨kinds used ++ .comma :: front, by simp, arg :: args, max n n', .more hchain hargs,
        by omega⟩
termination_by 9 * tokens.length + 7
decreasing_by
  all_goals
    have := Connective.rank_le_one .or
    omega

end

end AccessRules.Rule.Grammar
