import AccessRules.Rule.Expr.Parse

/-!
# The grammar of rules

What a row of tokens says is given here by derivations, apart from any way of reading them. A rule
is a chain of `or`; the links of a chain of `or` are chains of `and`, whose links in turn are
comparisons behind any number of `not`:

* `Operand`: a constant, a list of constants, a path, a call, or a rule in parentheses;
* `Compared`: an operand, or two with one comparison between them;
* `Negated`: a compared part behind any number of `not`;
* `Chain`: links with one connective between them, grouped to the left.

Each derivation carries its nesting, the depth that a reader of it reaches. A parenthesis, a bracket
and a `not` put what they enclose one level deeper, and the operator number `i` of a chain puts
itself and the link behind it `i` levels deeper; parts that stand side by side do not add up.
-/

namespace AccessRules.Rule.Grammar

/-- The kinds of some tokens. -/
abbrev kinds (tokens : List Token) : List TokenKind :=
  tokens.map Token.kind

/-- `Constant k v`: the token stands for the constant. -/
inductive Constant : TokenKind → Literal → Prop
  | integer (i : Int64) : Constant (.integer i) (.int i)
  | float (x : Number.Binary64) : Constant (.float x) (.float x)
  | string (s : String) : Constant (.string s) (.string s)
  | boolean (b : Bool) : Constant (.boolean b) (.bool b)
  | null : Constant .null .null

mutual

/-- `Bracketed ks items n`: a list of constants between brackets. -/
inductive Bracketed : List TokenKind → List Literal → Nat → Prop
  | empty : Bracketed [.leftBracket, .rightBracket] [] 1
  | items {ks : List TokenKind} {items : List Literal} {n : Nat} :
      Items ks items n → Bracketed (.leftBracket :: ks ++ [.rightBracket]) items (n + 1)

/-- `Items ks items n`: one or more items with commas between them. -/
inductive Items : List TokenKind → List Literal → Nat → Prop
  | one {ks : List TokenKind} {v : Literal} {n : Nat} : Item ks v n → Items ks [v] n
  | more {ks ks' : List TokenKind} {v : Literal} {vs : List Literal} {n n' : Nat} :
      Item ks v n → Items ks' vs n' → Items (ks ++ .comma :: ks') (v :: vs) (max n n')

/-- `Item ks v n`: a constant, or a list of them, as an item of a list. -/
inductive Item : List TokenKind → Literal → Nat → Prop
  | constant {k : TokenKind} {v : Literal} : Constant k v → Item [k] v 0
  | list {ks : List TokenKind} {items : List Literal} {n : Nat} :
      Bracketed ks items n → Item ks (.list items) n

end

mutual

/-- `Operand ks e n`: an operand of a comparison. -/
inductive Operand : List TokenKind → Expr → Nat → Prop
  | constant {k : TokenKind} {v : Literal} : Constant k v → Operand [k] (.literal v) 0
  | list {ks : List TokenKind} {items : List Literal} {n : Nat} :
      Bracketed ks items n → Operand ks (.literal (.list items)) n
  | path (name : String) : Operand [.name name] (.path name) 0
  | parens {ks : List TokenKind} {e : Expr} {i n : Nat} :
      Chain .or ks e i n → Operand (.leftParen :: ks ++ [.rightParen]) e (n + 1)
  | callEmpty (name : String) : Operand [.name name, .leftParen, .rightParen] (.call name []) 1
  | call {ks : List TokenKind} {args : List Expr} {n : Nat} (name : String) :
      Args ks args n → Operand (.name name :: .leftParen :: ks ++ [.rightParen]) (.call name args)
        (n + 1)

/-- `Args ks args n`: one or more arguments with commas between them. -/
inductive Args : List TokenKind → List Expr → Nat → Prop
  | one {ks : List TokenKind} {e : Expr} {i n : Nat} : Chain .or ks e i n → Args ks [e] n
  | more {ks ks' : List TokenKind} {e : Expr} {es : List Expr} {i n n' : Nat} :
      Chain .or ks e i n → Args ks' es n' → Args (ks ++ .comma :: ks') (e :: es) (max n n')

/-- `Compared ks e n`: an operand, or a comparison of two. -/
inductive Compared : List TokenKind → Expr → Nat → Prop
  | operand {ks : List TokenKind} {e : Expr} {n : Nat} : Operand ks e n → Compared ks e n
  | comparison {ks ks' : List TokenKind} {left right : Expr} {n n' : Nat} (op : Comparison) :
      Operand ks left n → Operand ks' right n' →
        Compared (ks ++ .comparison op :: ks') (.comparison op left right) (max n n')

/-- `Negated ks e n`: a compared part behind any number of `not`. -/
inductive Negated : List TokenKind → Expr → Nat → Prop
  | compared {ks : List TokenKind} {e : Expr} {n : Nat} : Compared ks e n → Negated ks e n
  | not {ks : List TokenKind} {e : Expr} {n : Nat} :
      Negated ks e n → Negated (.not :: ks) (.not e) (n + 1)

/-- `Link op ks e n`: a link of a chain of `op`. -/
inductive Link : Connective → List TokenKind → Expr → Nat → Prop
  | and {ks : List TokenKind} {e : Expr} {n : Nat} : Negated ks e n → Link .and ks e n
  | or {ks : List TokenKind} {e : Expr} {i n : Nat} : Chain .and ks e i n → Link .or ks e n

/-- `Chain op ks e i n`: a chain with `i` operators `op`, grouped to the left. -/
inductive Chain : Connective → List TokenKind → Expr → Nat → Nat → Prop
  | first {op : Connective} {ks : List TokenKind} {e : Expr} {n : Nat} :
      Link op ks e n → Chain op ks e 0 n
  | next {op : Connective} {ks ks' : List TokenKind} {left right : Expr} {i n n' : Nat} :
      Chain op ks left i n → Link op ks' right n' →
        Chain op (ks ++ .connective op :: ks') (.connective op left right) (i + 1)
          (max n (i + 1 + n'))

end

/-- `Derives ks e n`: a whole row of tokens says the rule `e` with nesting `n`; an end token may
close it. -/
inductive Derives : List TokenKind → Expr → Nat → Prop
  | bare {ks : List TokenKind} {e : Expr} {i n : Nat} : Chain .or ks e i n → Derives ks e n
  | ended {ks : List TokenKind} {e : Expr} {i n : Nat} :
      Chain .or ks e i n → Derives (ks ++ [.eof]) e n

end AccessRules.Rule.Grammar
