import AccessRules.Proofs.Rule.Grammar.Outcome

/-!
# Reading looks one token ahead

A reader uses up some tokens from the front, of which it sees the kinds and not the places, and sees
of the others no more than the kind of the first. `Local` says so of a reader at a row of tokens:
wherever the tokens it used up stand, and whatever follows instead of the tokens it left, with a
first one of the same kind, it comes to the same part or to the same stop in front of them. Readers
put together from local ones are local, so one case for each equation of a reader is all there is
to it.
-/

namespace AccessRules.Rule.Grammar

variable {α β : Type}

/-- The outcome that leaves the tokens `rest` behind a part, or that stops in front of them. -/
def leaving (rest : List Token) : Except StopCause α → Outcome α
  | .error cause => .error ⟨rest, cause⟩
  | .ok a => .ok (a, rest)

/-- Of `tokens` the reader uses up the first ones, and what it makes of them depends on their kinds
and on the kind of the next one only. -/
def Local (read : List Token → Outcome α) (tokens : List Token) : Prop :=
  ∃ used rest r, tokens = used ++ rest ∧ ∀ used' rest', kinds used' = kinds used →
    headKind rest' = headKind rest → read (used' ++ rest') = leaving rest' r

/-- Two rows that go on alike behind tokens of the same kinds start alike. -/
theorem headKind_append_congr {used used' rest rest' : List Token}
    (hused : kinds used' = kinds used) (h : headKind rest' = headKind rest) :
    headKind (used' ++ rest') = headKind (used ++ rest) := by
  cases used with
  | nil =>
    obtain rfl := List.map_eq_nil_iff.mp hused
    exact h
  | cons t ts =>
    obtain ⟨t', ts', rfl, ht, -⟩ := List.map_eq_cons_iff.mp hused
    exact ht

/-! ## Putting readers together -/

/-- A reader that uses up nothing. -/
theorem local_of_eq {read : List Token → Outcome α} {tokens : List Token}
    (r : Except StopCause α)
    (h : ∀ tokens', headKind tokens' = headKind tokens → read tokens' = leaving tokens' r) :
    Local read tokens := by
  refine ⟨[], tokens, r, rfl, ?_⟩
  intro used' rest' hused hrest'
  obtain rfl := List.map_eq_nil_iff.mp hused
  exact h rest' hrest'

/-- A reader that agrees with a local one on all rows that start alike is local too. -/
theorem Local.congr {read read' : List Token → Outcome α} {tokens : List Token}
    (h : Local read tokens)
    (heq : ∀ tokens', headKind tokens' = headKind tokens → read' tokens' = read tokens') :
    Local read' tokens := by
  obtain ⟨used, rest, r, rfl, hread⟩ := h
  refine ⟨used, rest, r, rfl, ?_⟩
  intro used' rest' hused hrest'
  rw [heq _ (headKind_append_congr hused hrest'), hread used' rest' hused hrest']

/-- A reader that first drops a known token is local if it is local behind it. -/
theorem Local.tail {read : List Token → Outcome α} {tokens : List Token} {k : TokenKind}
    (h : Local read tokens.tail) (hhead : headKind tokens = k) (hk : k ≠ .eof) :
    Local (fun tokens => read tokens.tail) tokens := by
  cases tokens with
  | nil => exact absurd hhead.symm hk
  | cons t ts =>
    obtain ⟨used, rest, r, hts, hread⟩ := h
    -- What is used up is the dropped token and what is used up behind it.
    refine ⟨t :: used, rest, r, congrArg (t :: ·) hts, ?_⟩
    intro used' rest' hused hrest'
    obtain ⟨t', ts', rfl, -, hts'⟩ := List.map_eq_cons_iff.mp hused
    exact hread ts' rest' hts' hrest'

/-- Two readers, one behind the other, look no farther ahead than the second one does. -/
theorem Local.andThen {read : List Token → Outcome α} {next : α → List Token → Outcome β}
    {tokens : List Token} (h : Local read tokens)
    (hnext : ∀ a rest, read tokens = .ok (a, rest) → Local (next a) rest) :
    Local (fun tokens => (read tokens).andThen next) tokens := by
  obtain ⟨used, rest, r, rfl, hread⟩ := h
  cases r with
  | error cause =>
    refine ⟨used, rest, .error cause, rfl, ?_⟩
    intro used' rest' hused hrest'
    show (read (used' ++ rest')).andThen next = _
    rw [hread used' rest' hused hrest']
    rfl
  | ok a =>
    -- What the second reader uses up comes behind what the first one did.
    obtain ⟨more, last, r, rfl, hlast⟩ := hnext a rest (hread used rest rfl rfl)
    refine ⟨used ++ more, last, r, (List.append_assoc ..).symm, ?_⟩
    intro both last' hboth hlast'
    obtain ⟨used', more', rfl, hused, hmore⟩ :=
      List.map_eq_append_iff.mp (hboth.trans List.map_append)
    show (read (used' ++ more' ++ last')).andThen next = _
    rw [List.append_assoc, hread used' _ hused (headKind_append_congr hmore hlast')]
    exact hlast more' last' hmore hlast'

/-- The limit on nesting is a matter of the depth and not of the tokens, so a nested reader is as
local as the reader inside. -/
theorem local_nested {read : List Token → Outcome α} {tokens : List Token} (d : Nat)
    (h : d < maxDepth → Local read tokens) :
    Local (fun tokens => nested d tokens (read tokens)) tokens := by
  by_cases hdepth : d < maxDepth
  · refine (h hdepth).congr ?_
    intro tokens' _
    exact if_pos hdepth
  · refine local_of_eq (.error .tooDeep) ?_
    intro tokens' _
    exact if_neg hdepth

/-- Deciding by the kind in front takes no more than the look at the next token. -/
theorem local_ite {read read' : List Token → Outcome α} {tokens : List Token} {k : TokenKind}
    (h : headKind tokens = k → Local read tokens) (h' : headKind tokens ≠ k → Local read' tokens) :
    Local (fun tokens => if headKind tokens = k then read tokens else read' tokens) tokens := by
  by_cases hkind : headKind tokens = k
  · refine (h hkind).congr ?_
    intro tokens' htokens'
    exact if_pos (htokens'.trans hkind)
  · refine (h' hkind).congr ?_
    intro tokens' htokens'
    exact if_neg (htokens' ▸ hkind)

theorem local_ok (a : α) (tokens : List Token) : Local (fun rest => .ok (a, rest)) tokens :=
  local_of_eq (.ok a) fun _ _ => rfl

theorem local_error (cause : StopCause) (tokens : List Token) :
    Local (fun rest => (.error ⟨rest, cause⟩ : Outcome α)) tokens :=
  local_of_eq (.error cause) fun _ _ => rfl

/-- Reading a token that ends a part, or else stopping at it. -/
theorem local_close (close : TokenKind) (hclose : close ≠ .eof) (a : α) (tokens : List Token) :
    Local (fun tokens => if headKind tokens = close then .ok (a, tokens.tail)
      else .error ⟨tokens, .expected (.token close)⟩) tokens := by
  refine local_ite ?_ ?_
  · intro h
    exact (local_ok a tokens.tail).tail h hclose
  · intro _
    exact local_error _ tokens

/-- A list that may be closed at once is local if its first member is. -/
theorem local_orEmpty (close : TokenKind) (hclose : close ≠ .eof)
    {first : List Token → Outcome (List α)} {tokens : List Token} (h : Local first tokens) :
    Local (fun tokens => orEmpty close tokens (first tokens)) tokens := by
  refine local_ite ?_ ?_
  · intro hempty
    exact (local_ok ([] : List α) tokens.tail).tail hempty hclose
  · intro _
    exact h

/-- Behind a member, the comma and the closing token are told apart by the next kind alone. -/
theorem local_listed (close : TokenKind) (hclose : close ≠ .eof) (all : List α)
    {more : List Token → Outcome (List α)} {tokens : List Token}
    (h : headKind tokens = .comma → Local more tokens.tail) :
    Local (listed close all more) tokens := by
  refine local_ite ?_ ?_
  · intro hcomma
    exact (h hcomma).tail hcomma nofun
  · intro _
    exact local_close close hclose all tokens

/-- Reading a constant, or else stopping at what is none. -/
theorem local_constant (f : Literal → α) (cause : StopCause) (tokens : List Token) :
    Local (fun tokens =>
      match (headKind tokens).literal? with
      | some v => .ok (f v, tokens.tail)
      | none => .error ⟨tokens, cause⟩) tokens := by
  cases hliteral : (headKind tokens).literal? with
  | none =>
    refine local_of_eq (.error cause) ?_
    intro tokens' htokens'
    rw [htokens', hliteral]
    rfl
  | some v =>
    -- The end stands for no constant, so there is a token to drop.
    have hhead : headKind tokens ≠ .eof := by
      intro h
      rw [h] at hliteral
      cases hliteral
    refine ((local_ok (f v) tokens.tail).tail rfl hhead).congr ?_
    intro tokens' htokens'
    rw [htokens', hliteral]

/-- Leaving a comparison that does not go on with a second sign. -/
theorem local_unchained (e : Expr) (tokens : List Token) :
    Local (fun tokens =>
      match (headKind tokens).comparison? with
      | some _ => .error ⟨tokens, .chained⟩
      | none => .ok (e, tokens)) tokens := by
  cases hop : (headKind tokens).comparison? with
  | some op =>
    refine local_of_eq (.error .chained) ?_
    intro tokens' htokens'
    rw [htokens', hop]
    rfl
  | none =>
    refine local_of_eq (.ok e) ?_
    intro tokens' htokens'
    rw [htokens', hop]
    rfl

/-! ## The readers -/

theorem local_readToken (kind : TokenKind) (hkind : kind ≠ .eof) (tokens : List Token) :
    Local (fun tokens => outcome (readToken kind tokens)) tokens := by
  rw [funext (outcome_readToken kind hkind)]
  exact local_close kind hkind () tokens

mutual

/-- An empty list is told from others by the token behind its bracket. -/
theorem local_readList (d : Nat) (tokens : List Token) :
    Local (fun tokens => outcome (readList d tokens)) tokens := by
  rw [funext (outcome_readList d)]
  exact local_orEmpty .rightBracket nofun (local_readItems d [] tokens)
termination_by 3 * tokens.length + 2

theorem local_readItems (d : Nat) (items : List Literal) (tokens : List Token) :
    Local (fun tokens => outcome (readItems d items tokens)) tokens := by
  rw [funext (outcome_readItems d items)]
  refine (local_frontItem d tokens).andThen ?_
  intro v rest hitem
  have hshort := frontItem_bound hitem
  refine local_listed .rightBracket nofun _ ?_
  intro hcomma
  have htail := tail_length_lt hcomma nofun
  exact local_readItems d (v :: items) rest.tail
termination_by 3 * tokens.length + 1

theorem local_frontItem (d : Nat) (tokens : List Token) : Local (frontItem d) tokens := by
  rw [funext (frontItem_eq d)]
  refine local_ite ?_ ?_
  · intro hopen
    have htail := tail_length_lt hopen nofun
    have hlist := (local_readList (d + 1) tokens.tail).tail hopen nofun
    refine local_nested d fun _ => hlist.andThen ?_
    intro items rest _
    exact local_ok (Literal.list items) rest
  · intro _
    exact local_constant id _ tokens
termination_by 3 * tokens.length

end

mutual

/-- A chain looks as far ahead as its last member does, and then at whether its connective comes. -/
theorem local_readChain (op : Connective) (d : Nat) (tokens : List Token) :
    Local (fun tokens => outcome (readChain op d tokens)) tokens := by
  rw [funext (outcome_readChain op d)]
  refine (local_readLink op d tokens).andThen ?_
  intro left rest hlink
  have hshort := outcome_bound hlink
  exact local_extendChain op d left rest
termination_by 9 * tokens.length + 2 * op.rank + 4

/-- Whether a chain goes on is told by the token behind its last member. -/
theorem local_extendChain (op : Connective) (d : Nat) (left : Expr) (tokens : List Token) :
    Local (fun tokens => outcome (extendChain op d left tokens)) tokens := by
  rw [funext (outcome_extendChain op d left)]
  refine local_ite ?_ ?_
  · intro hop
    have htail := tail_length_lt hop nofun
    -- Behind the connective stands a link, and behind the link the chain goes on as before.
    have hlink := (local_readLink op (d + 1) tokens.tail).tail hop nofun
    refine local_nested d fun _ => hlink.andThen ?_
    intro right rest hright
    have hshort := outcome_bound hright
    exact local_extendChain op (d + 1) (.connective op left right) rest
  · intro _
    exact local_ok left tokens
termination_by 9 * tokens.length
decreasing_by
  · have := op.rank_le_one
    omega
  · omega

theorem local_readLink (op : Connective) (d : Nat) (tokens : List Token) :
    Local (fun tokens => outcome (readLink op d tokens)) tokens := by
  cases op with
  | or =>
    refine (local_readChain .and d tokens).congr ?_
    intro tokens' _
    rw [readLink]
  | and =>
    refine (local_readNot d tokens).congr ?_
    intro tokens' _
    rw [readLink]
termination_by 9 * tokens.length + 2 * op.rank + 3
decreasing_by
  all_goals
    simp only [Connective.rank]
    omega

/-- A negation is told by its first token. -/
theorem local_readNot (d : Nat) (tokens : List Token) :
    Local (fun tokens => outcome (readNot d tokens)) tokens := by
  rw [funext (outcome_readNot d)]
  refine local_ite ?_ ?_
  · intro hnot
    have htail := tail_length_lt hnot nofun
    have hoperand := (local_readNot (d + 1) tokens.tail).tail hnot nofun
    refine local_nested d fun _ => hoperand.andThen ?_
    intro e rest _
    exact local_ok (Expr.not e) rest
  · intro _
    exact local_readComparison d tokens
termination_by 9 * tokens.length + 2

/-- A comparison looks at the token behind its first operand, and for a second sign behind the other
one. -/
theorem local_readComparison (d : Nat) (tokens : List Token) :
    Local (fun tokens => outcome (readComparison d tokens)) tokens := by
  rw [funext (outcome_readComparison d)]
  refine (local_readOperand d tokens).andThen ?_
  intro left rest hleft
  have hshort := outcome_bound hleft
  cases hop : (headKind rest).comparison? with
  | none =>
    refine (local_ok left rest).congr ?_
    intro rest' hrest'
    rw [hrest', hop]
  | some op =>
    have hsign := comparison?_eq_some_iff.mp hop
    have htail := tail_length_lt hsign nofun
    have hright := (local_readOperand d rest.tail).tail hsign nofun
    -- Behind the second operand only a second sign matters, and leaving it takes one more look.
    have hboth := hright.andThen fun right last _ => local_unchained (.comparison op left right) last
    refine hboth.congr ?_
    intro rest' hrest'
    rewrite [hrest', hop]
    rfl
termination_by 9 * tokens.length + 1

/-- An operand is told by its first token, and a call by the parenthesis behind the name. -/
theorem local_readOperand (d : Nat) (tokens : List Token) :
    Local (fun tokens => outcome (readOperand d tokens)) tokens := by
  cases hkind : headKind tokens with
  | leftParen =>
    have htail := tail_length_lt hkind nofun
    have hinner := (local_readChain .or (d + 1) tokens.tail).tail hkind nofun
    have hboth := hinner.andThen fun e rest _ =>
      (local_readToken .rightParen nofun rest).andThen fun _ last _ => local_ok e last
    refine (local_nested d fun _ => hboth).congr ?_
    intro tokens' htokens'
    rw [outcome_readOperand, htokens', hkind]
  | leftBracket =>
    have hlist := (local_readList (d + 1) tokens.tail).tail hkind nofun
    have hitems := hlist.andThen fun items rest _ => local_ok (Expr.literal (.list items)) rest
    refine (local_nested d fun _ => hitems).congr ?_
    intro tokens' htokens'
    rw [outcome_readOperand, htokens', hkind]
  | name name =>
    have htail := tail_length_lt hkind nofun
    -- A path, or a call if a parenthesis opens behind the name.
    have hrest : Local (fun rest =>
        if headKind rest = .leftParen then
          nested d rest ((outcome (readArgs (d + 1) rest.tail)).andThen
            fun args rest' => .ok (Expr.call name args, rest'))
        else .ok (Expr.path name, rest)) tokens.tail := by
      refine local_ite ?_ ?_
      · intro hopen
        have htail' := tail_length_lt hopen nofun
        have hargs := (local_readArgs (d + 1) tokens.tail.tail).tail hopen nofun
        refine local_nested d fun _ => hargs.andThen ?_
        intro args rest _
        exact local_ok (Expr.call name args) rest
      · intro _
        exact local_ok (Expr.path name) tokens.tail
    refine (hrest.tail hkind nofun).congr ?_
    intro tokens' htokens'
    rw [outcome_readOperand, htokens', hkind]
  | _ =>
    refine (local_constant .literal (.expected .operand) tokens).congr ?_
    intro tokens' htokens'
    rewrite [outcome_readOperand, htokens', hkind]
    rfl
termination_by 9 * tokens.length
decreasing_by
  all_goals
    have := Connective.rank_le_one .or
    omega

theorem local_readArgs (d : Nat) (tokens : List Token) :
    Local (fun tokens => outcome (readArgs d tokens)) tokens := by
  rw [funext (outcome_readArgs d)]
  exact local_orEmpty .rightParen nofun (local_readMoreArgs d [] tokens)
termination_by 9 * tokens.length + 8

theorem local_readMoreArgs (d : Nat) (args : List Expr) (tokens : List Token) :
    Local (fun tokens => outcome (readMoreArgs d args tokens)) tokens := by
  rw [funext (outcome_readMoreArgs d args)]
  refine (local_readChain .or d tokens).andThen ?_
  intro arg rest harg
  have hshort := outcome_bound harg
  refine local_listed .rightParen nofun _ ?_
  intro hcomma
  have htail := tail_length_lt hcomma nofun
  exact local_readMoreArgs d (arg :: args) rest.tail
termination_by 9 * tokens.length + 7
decreasing_by
  all_goals
    have := Connective.rank_le_one .or
    omega

end

end AccessRules.Rule.Grammar
