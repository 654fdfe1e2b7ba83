import AccessRules.Rule.Expr.Basic
import AccessRules.Rule.SyntaxError
import AccessRules.Rule.Token.Scan

/-!
# Reading a rule from its tokens

From loosest to tightest a rule is a chain of `or`, a chain of `and`, a row of `not`, a comparison
and an operand:

* a chain groups to the left;
* a comparison has at most one operator, so a comparison of a comparison needs parentheses;
* an operand is a constant, a list of constants, a path, a call or a rule in parentheses.

Every parenthesis, bracket and `not` nests what it encloses one level deeper, and the operator
number `i` of a chain nests the operand behind it `i` levels deeper; nesting stops at `maxDepth`.
Each reader returns the tokens that it leaves, of which there are fewer than before.
-/

namespace AccessRules.Rule

/-- Why reading stopped, whatever token it stopped at. -/
inductive StopCause
  | expected (what : Expected)
  | afterEnd
  | chained
  | tooDeep
deriving DecidableEq

/-- Where and why reading stopped: the first of the tokens left is the one that cannot stand
there. -/
structure Stop where
  rest : List Token
  cause : StopCause

/-- The fault of a cause at a token. -/
def StopCause.fault (found : TokenKind) : StopCause → SyntaxFault
  | .expected what => .unexpectedToken found what
  | .afterEnd => .tokenAfterEnd found
  | .chained => .chainedComparison found
  | .tooDeep => .nestedTooDeeply

/-- The error of a stop; `finish` is the place of the end of the text. -/
def Stop.error (finish : Nat) (stop : Stop) : SyntaxError :=
  match stop.rest with
  | [] => ⟨finish, stop.cause.fault .eof⟩
  | t :: _ => ⟨t.position, stop.cause.fault t.kind⟩

/-- A part read off the front of some tokens, and the fewer tokens behind it. -/
abbrev Reading (α : Type) (tokens : List Token) :=
  Except Stop (α × { rest : List Token // rest.length < tokens.length })

/-- A part read where some tokens may be left to it, and the tokens behind it. -/
abbrev Continuation (α : Type) (tokens : List Token) :=
  Except Stop (α × { rest : List Token // rest.length ≤ tokens.length })

/-- The constant that a token is. -/
def TokenKind.literal? : TokenKind → Option Literal
  | .integer i => some (.int i)
  | .float x => some (.float x)
  | .string s => some (.string s)
  | .boolean b => some (.bool b)
  | .null => some .null
  | _ => none

/-- The comparison that a token is. -/
def TokenKind.comparison? : TokenKind → Option Comparison
  | .comparison op => some op
  | _ => none

/-- The kind of the first token; that of the end if there is none. -/
def headKind : List Token → TokenKind
  | [] => .eof
  | t :: _ => t.kind

/-- Reads one certain token. -/
def readToken (kind : TokenKind) : (tokens : List Token) → Reading Unit tokens
  | [] => .error ⟨[], .expected (.token kind)⟩
  | t :: ts =>
    if t.kind = kind then .ok ((), ⟨ts, Nat.lt_succ_self _⟩)
    else .error ⟨t :: ts, .expected (.token kind)⟩

mutual

/-- Reads a list of constants from behind its opening bracket. -/
def readList (depth : Nat) (tokens : List Token) : Reading (List Literal) tokens :=
  match tokens with
  | [] => readItems depth [] []
  | t :: ts =>
    if t.kind = .rightBracket then .ok ([], ⟨ts, Nat.lt_succ_self _⟩)
    else readItems depth [] (t :: ts)
termination_by 3 * tokens.length + 1

/-- Reads the items of a list up to its closing bracket; `items` holds those before, the last one
first. -/
def readItems (depth : Nat) (items : List Literal) (tokens : List Token) :
    Reading (List Literal) tokens :=
  match tokens with
  | [] => .error ⟨[], .expected .listItem⟩
  | t :: ts =>
    match readItem depth t ts with
    | .error stop => .error stop
    | .ok (_, ⟨[], _⟩) => .error ⟨[], .expected (.token .rightBracket)⟩
    | .ok (item, ⟨u :: us, h⟩) =>
      have h : us.length < ts.length := h
      if u.kind = .comma then
        match readItems depth (item :: items) us with
        | .error stop => .error stop
        | .ok (all, rest) => .ok (all, ⟨rest.1, Nat.lt_trans rest.2 (Nat.lt_succ_of_lt h)⟩)
      else if u.kind = .rightBracket then
        .ok ((item :: items).reverse, ⟨us, Nat.lt_succ_of_lt h⟩)
      else .error ⟨u :: us, .expected (.token .rightBracket)⟩
termination_by 3 * tokens.length

/-- Reads one item of a list: a constant, or a list one level deeper. -/
def readItem (depth : Nat) (t : Token) (ts : List Token) : Continuation Literal ts :=
  if t.kind = .leftBracket then
    if depth < maxDepth then
      match readList (depth + 1) ts with
      | .error stop => .error stop
      | .ok (items, rest) => .ok (.list items, ⟨rest.1, Nat.le_of_lt rest.2⟩)
    else .error ⟨t :: ts, .tooDeep⟩
  else
    match t.kind.literal? with
    | some item => .ok (item, ⟨ts, Nat.le_refl _⟩)
    | none => .error ⟨t :: ts, .expected .listItem⟩
termination_by 3 * ts.length + 2

end

/-- How tightly a connective binds: `or` is the looser one. -/
def Connective.rank : Connective → Nat
  | .and => 0
  | .or => 1

theorem Connective.rank_le_one (op : Connective) : op.rank ≤ 1 := by
  cases op <;> decide

mutual

/-- Reads a chain of one connective. -/
def readChain (op : Connective) (depth : Nat) (tokens : List Token) : Reading Expr tokens :=
  match readLink op depth tokens with
  | .error stop => .error stop
  | .ok (left, rest) =>
    match extendChain op depth left rest.1 with
    | .error stop => .error stop
    | .ok (e, rest') => .ok (e, ⟨rest'.1, Nat.lt_of_le_of_lt rest'.2 rest.2⟩)
termination_by 9 * tokens.length + 2 * op.rank + 4

/-- Goes on with a chain behind its part `left`, as long as its connective follows. -/
def extendChain (op : Connective) (depth : Nat) (left : Expr) (tokens : List Token) :
    Continuation Expr tokens :=
  match tokens with
  | [] => .ok (left, ⟨[], Nat.le_refl _⟩)
  | t :: ts =>
    if t.kind = .connective op then
      if depth < maxDepth then
        match readLink op (depth + 1) ts with
        | .error stop => .error stop
        | .ok (right, rest) =>
          match extendChain op (depth + 1) (.connective op left right) rest.1 with
          | .error stop => .error stop
          | .ok (e, rest') =>
            .ok (e, ⟨rest'.1, Nat.le_succ_of_le (Nat.le_trans rest'.2 (Nat.le_of_lt rest.2))⟩)
      else .error ⟨t :: ts, .tooDeep⟩
    else .ok (left, ⟨t :: ts, Nat.le_refl _⟩)
termination_by 9 * tokens.length
decreasing_by
  · have := op.rank_le_one
    simp only [List.length_cons]
    omega
  · have := rest.2
    simp only [List.length_cons]
    omega

/-- Reads one link of a chain: for `or` a chain of `and`, for `and` a row of `not`. -/
def readLink (op : Connective) (depth : Nat) (tokens : List Token) : Reading Expr tokens :=
  match op with
  | .or => readChain .and depth tokens
  | .and => readNot depth tokens
termination_by 9 * tokens.length + 2 * op.rank + 3
decreasing_by
  all_goals
    simp only [Connective.rank]
    omega

/-- Reads a comparison with any number of `not` before it. -/
def readNot (depth : Nat) (tokens : List Token) : Reading Expr tokens :=
  match tokens with
  | [] => readComparison depth []
  | t :: ts =>
    if t.kind = .not then
      if depth < maxDepth then
        match readNot (depth + 1) ts with
        | .error stop => .error stop
        | .ok (e, rest) => .ok (.not e, ⟨rest.1, Nat.lt_succ_of_lt rest.2⟩)
      else .error ⟨t :: ts, .tooDeep⟩
    else readComparison depth (t :: ts)
termination_by 9 * tokens.length + 2

/-- Reads an operand and, if a comparison follows, the other operand. -/
def readComparison (depth : Nat) (tokens : List Token) : Reading Expr tokens :=
  match readOperand depth tokens with
  | .error stop => .error stop
  | .ok (left, ⟨[], h⟩) => .ok (left, ⟨[], h⟩)
  | .ok (left, ⟨t :: ts, h⟩) =>
    match t.kind.comparison? with
    | none => .ok (left, ⟨t :: ts, h⟩)
    | some op =>
      have h : ts.length + 1 < tokens.length := h
      match readOperand depth ts with
      | .error stop => .error stop
      | .ok (right, rest) =>
        match (headKind rest.1).comparison? with
        | some _ => .error ⟨rest.1, .chained⟩
        | none =>
          .ok (.comparison op left right,
            ⟨rest.1, Nat.lt_trans rest.2 (Nat.lt_of_succ_lt h)⟩)
termination_by 9 * tokens.length + 1

/-- Reads an operand. -/
def readOperand (depth : Nat) (tokens : List Token) : Reading Expr tokens :=
  match tokens with
  | [] => .error ⟨[], .expected .operand⟩
  | t :: ts =>
    match t.kind with
    | .leftParen =>
      if depth < maxDepth then
        match readChain .or (depth + 1) ts with
        | .error stop => .error stop
        | .ok (e, rest) =>
          match readToken .rightParen rest.1 with
          | .error stop => .error stop
          | .ok (_, rest') =>
            .ok (e, ⟨rest'.1, Nat.lt_succ_of_lt (Nat.lt_trans rest'.2 rest.2)⟩)
      else .error ⟨t :: ts, .tooDeep⟩
    | .leftBracket =>
      if depth < maxDepth then
        match readList (depth + 1) ts with
        | .error stop => .error stop
        | .ok (items, rest) =>
          .ok (.literal (.list items), ⟨rest.1, Nat.lt_succ_of_lt rest.2⟩)
      else .error ⟨t :: ts, .tooDeep⟩
    | .name name =>
      match ts with
      | [] => .ok (.path name, ⟨[], Nat.lt_succ_self _⟩)
      | u :: us =>
        if u.kind = .leftParen then
          if depth < maxDepth then
            match readArgs (depth + 1) us with
            | .error stop => .error stop
            | .ok (args, rest) =>
              .ok (.call name args, ⟨rest.1, Nat.lt_succ_of_lt (Nat.lt_succ_of_lt rest.2)⟩)
          else .error ⟨u :: us, .tooDeep⟩
        else .ok (.path name, ⟨u :: us, Nat.lt_succ_self _⟩)
    | kind =>
      match kind.literal? with
      | some value => .ok (.literal value, ⟨ts, Nat.lt_succ_self _⟩)
      | none => .error ⟨t :: ts, .expected .operand⟩
termination_by 9 * tokens.length
decreasing_by
  all_goals
    simp only [Connective.rank, List.length_cons]
    omega

/-- Reads the arguments of a call from behind its opening parenthesis. -/
def readArgs (depth : Nat) (tokens : List Token) : Reading (List Expr) tokens :=
  match tokens with
  | [] => readMoreArgs depth [] []
  | t :: ts =>
    if t.kind = .rightParen then .ok ([], ⟨ts, Nat.lt_succ_self _⟩)
    else readMoreArgs depth [] (t :: ts)
termination_by 9 * tokens.length + 8

/-- Reads arguments up to the closing parenthesis; `args` holds those before, the last one
first. -/
def readMoreArgs (depth : Nat) (args : List Expr) (tokens : List Token) :
    Reading (List Expr) tokens :=
  match readChain .or depth tokens with
  | .error stop => .error stop
  | .ok (_, ⟨[], _⟩) => .error ⟨[], .expected (.token .rightParen)⟩
  | .ok (arg, ⟨u :: us, h⟩) =>
    have h : us.length + 1 < tokens.length := h
    if u.kind = .comma then
      match readMoreArgs depth (arg :: args) us with
      | .error stop => .error stop
      | .ok (all, rest) => .ok (all, ⟨rest.1, Nat.lt_trans rest.2 (Nat.lt_of_succ_lt h)⟩)
    else if u.kind = .rightParen then
      .ok ((arg :: args).reverse, ⟨us, Nat.lt_of_succ_lt h⟩)
    else .error ⟨u :: us, .expected (.token .rightParen)⟩
termination_by 9 * tokens.length + 7
decreasing_by
  · simp only [Connective.rank]
    omega
  · omega

end

/-- The place of the end of a row of tokens: that of its first end token, or else behind the start
of the last token. -/
def endPosition (tokens : List Token) : Nat :=
  match tokens.find? (·.kind = .eof) with
  | some t => t.position
  | none =>
    match tokens.getLast? with
    | some t => t.position + 1
    | none => 0

/-- Reads a whole row of tokens, up to the first end token, as one rule. -/
def Expr.ofTokens (tokens : List Token) : Except SyntaxError Expr :=
  match readChain .or 0 (tokens.takeWhile (·.kind ≠ .eof)) with
  | .error stop => .error (stop.error (endPosition tokens))
  | .ok (e, ⟨[], _⟩) => .ok e
  | .ok (_, ⟨t :: ts, _⟩) => .error (Stop.error (endPosition tokens) ⟨t :: ts, .afterEnd⟩)

/-- Reads a text as a rule. -/
def parse (source : String) : Except SyntaxError Expr :=
  match Token.scan source with
  | .error e => .error e
  | .ok tokens => Expr.ofTokens tokens

end AccessRules.Rule
