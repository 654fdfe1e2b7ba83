import AccessRules.Proofs.Rule.Grammar.Basic

/-!
# One equation for each reader

What comes of reading is a part and the tokens behind it, or a stop. The readers return these
together with a bound on what they leave, which their recursion needs and nothing else does;
`outcome` leaves the bound out, and then readers can be put one behind the other by `andThen`.

Each reader has one equation here. It asks for the kind of the token in front and for nothing else,
where an end token and no token at all are the same, so what is proved about reading is proved about
these equations: what is read, what is left, and where reading stops.
-/

namespace AccessRules.Rule.Grammar

variable {α β : Type}

/-- A part and the tokens behind it, or a stop. -/
abbrev Outcome (α : Type) :=
  Except Stop (α × List Token)

/-- What came of a reading, without the bound on what it leaves. -/
def outcome {p : List Token → Prop} :
    Except Stop (α × { rest : List Token // p rest }) → Outcome α
  | .error stop => .error stop
  | .ok (a, rest) => .ok (a, rest.1)

/-- Reads on behind a part. -/
def Outcome.andThen (o : Outcome α) (next : α → List Token → Outcome β) : Outcome β :=
  match o with
  | .error stop => .error stop
  | .ok (a, rest) => next a rest

/-- Reads on at a token that nests what stands behind it one level deeper. -/
def nested (depth : Nat) (tokens : List Token) (inner : Outcome α) : Outcome α :=
  if depth < maxDepth then inner else .error ⟨tokens, .tooDeep⟩

/-- Reads from behind an opening token: nothing if it is closed at once. -/
def orEmpty (close : TokenKind) (tokens : List Token) (first : Outcome (List α)) :
    Outcome (List α) :=
  if headKind tokens = close then .ok ([], tokens.tail) else first

/-- Reads from behind a member of a list: a comma and more members, or the closing token. -/
def listed (close : TokenKind) (all : List α) (more : List Token → Outcome (List α))
    (tokens : List Token) : Outcome (List α) :=
  if headKind tokens = .comma then more tokens.tail
  else if headKind tokens = close then .ok (all, tokens.tail)
  else .error ⟨tokens, .expected (.token close)⟩

@[simp] theorem outcome_ok {p : List Token → Prop} (a : α) (rest : { rest : List Token // p rest }) :
    outcome (.ok (a, rest)) = .ok (a, rest.1) :=
  rfl

@[simp] theorem outcome_error {p : List Token → Prop} (stop : Stop) :
    outcome (.error stop : Except Stop (α × { rest : List Token // p rest })) = .error stop :=
  rfl

@[simp] theorem andThen_ok (a : α) (rest : List Token) (next : α → List Token → Outcome β) :
    Outcome.andThen (.ok (a, rest)) next = next a rest :=
  rfl

@[simp] theorem andThen_error (stop : Stop) (next : α → List Token → Outcome β) :
    Outcome.andThen (.error stop : Outcome α) next = .error stop :=
  rfl

/-- A row that starts with some kind other than the end has a token of that kind in front. -/
theorem eq_cons_of_headKind {tokens : List Token} {k : TokenKind} (h : headKind tokens = k)
    (hk : k ≠ .eof) : ∃ t, tokens = t :: tokens.tail ∧ t.kind = k := by
  cases tokens with
  | nil => exact absurd h.symm hk
  | cons t ts => exact ⟨t, rfl, h⟩

/-- Dropping a token that is there makes a row shorter, which is what the recursion of the readers
goes by. -/
theorem tail_length_lt {tokens : List Token} {k : TokenKind} (h : headKind tokens = k)
    (hk : k ≠ .eof) : tokens.tail.length < tokens.length := by
  cases tokens with
  | nil => exact absurd h.symm hk
  | cons t ts => exact Nat.lt_succ_self _

/-- What is left meets the bound that the reader promises. -/
theorem outcome_bound {p : List Token → Prop}
    {r : Except Stop (α × { rest : List Token // p rest })} {a : α} {rest : List Token}
    (h : outcome r = .ok (a, rest)) : p rest := by
  rcases r with stop | ⟨b, mid, hmid⟩
  · cases h
  · cases h
    exact hmid

/-- A reader that goes one level deeper, where it may, is a nested one. -/
theorem outcome_ite_depth {p : List Token → Prop} (d : Nat) (tokens : List Token)
    (r : Except Stop (α × { rest : List Token // p rest })) :
    outcome (if d < maxDepth then r else .error ⟨tokens, .tooDeep⟩) =
      nested d tokens (outcome r) := by
  unfold nested
  by_cases hdepth : d < maxDepth <;> simp [hdepth]

/-- A constant is what its token stands for. -/
theorem literal?_eq_some_iff {k : TokenKind} {v : Literal} :
    k.literal? = some v ↔ Constant k v := by
  constructor
  · intro h
    -- The kinds without a constant are closed by the equation itself.
    cases k <;> cases h
    · exact .integer _
    · exact .float _
    · exact .string _
    · exact .boolean _
    · exact .null
  · intro h
    cases h <;> rfl

/-- A token is a comparison only if it is one of the comparison signs. -/
theorem comparison?_eq_some_iff {k : TokenKind} {op : Comparison} :
    k.comparison? = some op ↔ k = .comparison op := by
  cases k <;> simp [TokenKind.comparison?]

theorem comparison?_eq_none_iff {k : TokenKind} :
    k.comparison? = none ↔ ∀ op, k ≠ .comparison op := by
  cases k <;> simp [TokenKind.comparison?]

/-- A token of the wanted kind is dropped, and any other is where reading stops. -/
theorem outcome_readToken (kind : TokenKind) (hkind : kind ≠ .eof) (tokens : List Token) :
    outcome (readToken kind tokens) =
      if headKind tokens = kind then .ok ((), tokens.tail)
      else .error ⟨tokens, .expected (.token kind)⟩ := by
  cases tokens with
  | nil => simp [readToken, headKind, hkind.symm]
  | cons t ts =>
    rw [readToken]
    by_cases ht : t.kind = kind <;> simp [headKind, ht]

/-! ## Lists -/

theorem outcome_readList (d : Nat) (tokens : List Token) :
    outcome (readList d tokens) =
      orEmpty .rightBracket tokens (outcome (readItems d [] tokens)) := by
  cases tokens with
  | nil => simp [readList, orEmpty, headKind]
  | cons t ts =>
    rw [readList, orEmpty]
    by_cases ht : t.kind = .rightBracket <;> simp [headKind, ht]

/-- The item in front of some tokens. -/
def frontItem (d : Nat) : List Token → Outcome Literal
  | [] => .error ⟨[], .expected .listItem⟩
  | t :: ts => outcome (readItem d t ts)

theorem frontItem_bound {d : Nat} {tokens rest : List Token} {v : Literal}
    (h : frontItem d tokens = .ok (v, rest)) : rest.length < tokens.length := by
  cases tokens with
  | nil => cases h
  | cons t ts => exact Nat.lt_succ_of_le (outcome_bound h)

/-- An item is a list, one level deeper, or a constant. -/
theorem frontItem_eq (d : Nat) (tokens : List Token) :
    frontItem d tokens =
      if headKind tokens = .leftBracket then
        nested d tokens ((outcome (readList (d + 1) tokens.tail)).andThen
          fun items rest => .ok (.list items, rest))
      else
        match (headKind tokens).literal? with
        | some v => .ok (v, tokens.tail)
        | none => .error ⟨tokens, .expected .listItem⟩ := by
  cases tokens with
  | nil => rfl
  | cons t ts =>
    rw [frontItem, readItem, headKind]
    by_cases ht : t.kind = .leftBracket
    · rw [if_pos ht, if_pos ht, outcome_ite_depth]
      dsimp only [List.tail_cons]
      cases readList (d + 1) ts <;> rfl
    · rw [if_neg ht, if_neg ht]
      cases t.kind.literal? <;> rfl

/-- An item is followed by a comma and more items, or by the bracket that closes the list. -/
theorem outcome_readItems (d : Nat) (before : List Literal) (tokens : List Token) :
    outcome (readItems d before tokens) =
      (frontItem d tokens).andThen fun v =>
        listed .rightBracket (v :: before).reverse
          fun rest => outcome (readItems d (v :: before) rest) := by
  cases tokens with
  | nil =>
    rw [readItems]
    rfl
  | cons t ts =>
    rw [readItems, frontItem]
    rcases readItem d t ts with stop | ⟨v, rest, hrest⟩
    · rfl
    · -- Behind the item stands nothing, or a token that decides.
      cases rest with
      | nil => rfl
      | cons u us =>
        rw [outcome_ok, andThen_ok, listed, headKind]
        dsimp only
        by_cases hcomma : u.kind = .comma
        · rw [if_pos hcomma, if_pos hcomma]
          dsimp only [List.tail_cons]
          cases readItems d (v :: before) us <;> rfl
        · rw [if_neg hcomma, if_neg hcomma]
          by_cases hclose : u.kind = .rightBracket
          · rw [if_pos hclose, if_pos hclose]
            rfl
          · rw [if_neg hclose, if_neg hclose]
            rfl

/-! ## Chains -/

theorem outcome_readChain (op : Connective) (d : Nat) (tokens : List Token) :
    outcome (readChain op d tokens) =
      (outcome (readLink op d tokens)).andThen fun left rest =>
        outcome (extendChain op d left rest) := by
  rw [readChain]
  rcases readLink op d tokens with stop | ⟨left, rest, hrest⟩
  · rfl
  · dsimp only [outcome_ok, andThen_ok]
    cases extendChain op d left rest <;> rfl

/-- A chain goes on behind its own connective only, one level deeper for every operator. -/
theorem outcome_extendChain (op : Connective) (d : Nat) (left : Expr) (tokens : List Token) :
    outcome (extendChain op d left tokens) =
      if headKind tokens = .connective op then
        nested d tokens ((outcome (readLink op (d + 1) tokens.tail)).andThen fun right rest =>
          outcome (extendChain op (d + 1) (.connective op left right) rest))
      else .ok (left, tokens) := by
  cases tokens with
  | nil =>
    rw [extendChain]
    rfl
  | cons t ts =>
    rw [extendChain, headKind]
    by_cases ht : t.kind = .connective op
    · rw [if_pos ht, if_pos ht, outcome_ite_depth]
      dsimp only [List.tail_cons]
      rcases readLink op (d + 1) ts with stop | ⟨right, rest, hrest⟩
      · rfl
      · dsimp only [outcome_ok, andThen_ok]
        cases extendChain op (d + 1) (.connective op left right) rest <;> rfl
    · rw [if_neg ht, if_neg ht]
      rfl

/-! ## Comparisons -/

/-- Each not takes one level; without one a comparison is read. -/
theorem outcome_readNot (d : Nat) (tokens : List Token) :
    outcome (readNot d tokens) =
      if headKind tokens = .not then
        nested d tokens ((outcome (readNot (d + 1) tokens.tail)).andThen
          fun e rest => .ok (.not e, rest))
      else outcome (readComparison d tokens) := by
  cases tokens with
  | nil =>
    rw [readNot]
    rfl
  | cons t ts =>
    rw [readNot, headKind]
    by_cases ht : t.kind = .not
    · rw [if_pos ht, if_pos ht, outcome_ite_depth]
      dsimp only [List.tail_cons]
      cases readNot (d + 1) ts <;> rfl
    · rw [if_neg ht, if_neg ht]

/-- A comparison is one operand, or two with a sign between them and no second sign behind them. -/
theorem outcome_readComparison (d : Nat) (tokens : List Token) :
    outcome (readComparison d tokens) =
      (outcome (readOperand d tokens)).andThen fun left rest =>
        match (headKind rest).comparison? with
        | none => .ok (left, rest)
        | some op =>
          (outcome (readOperand d rest.tail)).andThen fun right rest' =>
            match (headKind rest').comparison? with
            | some _ => .error ⟨rest', .chained⟩
            | none => .ok (.comparison op left right, rest') := by
  rw [readComparison]
  rcases readOperand d tokens with stop | ⟨left, rest, hrest⟩
  · rfl
  · cases rest with
    | nil => rfl
    | cons t ts =>
      rw [outcome_ok, andThen_ok, headKind.eq_2]
      dsimp only [List.tail_cons]
      cases t.kind.comparison? with
      | none => rfl
      | some op =>
        dsimp only
        rcases readOperand d ts with stop | ⟨right, rest', hrest'⟩
        · rfl
        · dsimp only [outcome_ok, andThen_ok]
          cases (headKind rest').comparison? <;> rfl

/-- An operand starts with a parenthesis, with a bracket, with a name, or is a constant. -/
theorem outcome_readOperand (d : Nat) (tokens : List Token) :
    outcome (readOperand d tokens) =
      match headKind tokens with
      | .leftParen =>
        nested d tokens ((outcome (readChain .or (d + 1) tokens.tail)).andThen fun e rest =>
          (outcome (readToken .rightParen rest)).andThen fun _ rest' => .ok (e, rest'))
      | .leftBracket =>
        nested d tokens ((outcome (readList (d + 1) tokens.tail)).andThen
          fun items rest => .ok (.literal (.list items), rest))
      | .name name =>
        if headKind tokens.tail = .leftParen then
          nested d tokens.tail ((outcome (readArgs (d + 1) tokens.tail.tail)).andThen
            fun args rest => .ok (.call name args, rest))
        else .ok (.path name, tokens.tail)
      | kind =>
        match kind.literal? with
        | some v => .ok (.literal v, tokens.tail)
        | none => .error ⟨tokens, .expected .operand⟩ := by
  cases tokens with
  | nil =>
    rw [readOperand]
    rfl
  | cons t ts =>
    rw [readOperand, headKind, List.tail_cons]
    -- The kind is split as the reader splits it, so that each case is one branch of it.
    obtain ⟨kind, position⟩ := t
    cases kind with
    | leftParen =>
      dsimp only
      rw [outcome_ite_depth]
      rcases readChain .or (d + 1) ts with stop | ⟨e, rest, hrest⟩
      · rfl
      · dsimp only [outcome_ok, andThen_ok]
        cases readToken .rightParen rest <;> rfl
    | leftBracket =>
      dsimp only
      rw [outcome_ite_depth]
      cases readList (d + 1) ts <;> rfl
    | name name =>
      cases ts with
      | nil => rfl
      | cons u us =>
        rw [headKind, List.tail_cons]
        dsimp only
        by_cases hopen : u.kind = .leftParen
        · rw [if_pos hopen, if_pos hopen, outcome_ite_depth]
          cases readArgs (d + 1) us <;> rfl
        · rw [if_neg hopen, if_neg hopen]
          rfl
    | _ => rfl

/-! ## Arguments -/

theorem outcome_readArgs (d : Nat) (tokens : List Token) :
    outcome (readArgs d tokens) =
      orEmpty .rightParen tokens (outcome (readMoreArgs d [] tokens)) := by
  cases tokens with
  | nil => simp [readArgs, orEmpty, headKind]
  | cons t ts =>
    rw [readArgs, orEmpty]
    by_cases ht : t.kind = .rightParen <;> simp [headKind, ht]

theorem outcome_readMoreArgs (d : Nat) (before : List Expr) (tokens : List Token) :
    outcome (readMoreArgs d before tokens) =
      (outcome (readChain .or d tokens)).andThen fun arg =>
        listed .rightParen (arg :: before).reverse
          fun rest => outcome (readMoreArgs d (arg :: before) rest) := by
  rw [readMoreArgs]
  rcases readChain .or d tokens with stop | ⟨arg, rest, hrest⟩
  · rfl
  · cases rest with
    | nil => rfl
    | cons u us =>
      rw [outcome_ok, andThen_ok, listed, headKind]
      dsimp only
      by_cases hcomma : u.kind = .comma
      · rw [if_pos hcomma, if_pos hcomma]
        dsimp only [List.tail_cons]
        cases readMoreArgs d (arg :: before) us <;> rfl
      · rw [if_neg hcomma, if_neg hcomma]
        by_cases hclose : u.kind = .rightParen
        · rw [if_pos hclose, if_pos hclose]
          rfl
        · rw [if_neg hclose, if_neg hclose]
          rfl

end AccessRules.Rule.Grammar
