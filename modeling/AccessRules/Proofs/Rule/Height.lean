import AccessRules.Proofs.Rule.Grammar.Exact

/-!
# How high the tree of a rule can be

Whatever walks a rule goes as deep as its tree is high. The nesting limit bounds that height, but not
as its count suggests. Reading counts a level for everything that encloses a part, except that the
first link of a chain is read before the operators of the chain are counted, although the tree puts
it below all of them. `Expr.leftTurns` counts what is missed:

> `within_of_chain`: the tree of a rule with nesting `n` has at most `2 n + 1` edges from its root to
> a node and one for each left turn on the way, and there are up to `n (n + 1)` left turns.
> `height_le_levels`: in a tree of `n` levels where a connective counts for both of its parts the
> height is `2 n + 1` at most.

The factor of two is for comparisons, which reading does not count: at most one stands between two
counted levels.
-/

namespace AccessRules.Rule

/-! ## Measures of a tree -/

namespace Literal

mutual

/-- The edges from a constant to the deepest item in it. -/
def height : Literal → Nat
  | .list items => itemsHeight items
  | _ => 0

/-- The edges from a list to the deepest of these items in it. -/
def itemsHeight : List Literal → Nat
  | [] => 0
  | item :: items => max (height item + 1) (itemsHeight items)

end

end Literal

namespace Expr

mutual

/-- The edges from the root of a rule to its deepest node, the items of lists included. -/
def height : Expr → Nat
  | .literal value => value.height
  | .path _ => 0
  | .comparison _ left right => max (height left) (height right) + 1
  | .connective _ left right => max (height left) (height right) + 1
  | .not operand => height operand + 1
  | .call _ args => argsHeight args

/-- The edges from a call to the deepest node of these arguments. -/
def argsHeight : List Expr → Nat
  | [] => 0
  | arg :: args => max (height arg + 1) (argsHeight args)

end

mutual

/-- The most connectives that a node lies on the left of. -/
def leftTurns : Expr → Nat
  | .literal _ => 0
  | .path _ => 0
  | .comparison _ left right => max (leftTurns left) (leftTurns right)
  | .connective _ left right => max (leftTurns left + 1) (leftTurns right)
  | .not operand => leftTurns operand
  | .call _ args => argsLeftTurns args

/-- The most connectives that a node of some arguments lies on the left of. -/
def argsLeftTurns : List Expr → Nat
  | [] => 0
  | arg :: args => max (leftTurns arg) (argsLeftTurns args)

end

/-- One for a comparison: as an operand of another one it must stand in parentheses. -/
def parens : Expr → Nat
  | .comparison _ _ _ => 1
  | _ => 0

mutual

/-- The levels of a rule when a connective puts both of its parts one level deeper. -/
def levels : Expr → Nat
  | .literal value => value.height
  | .path _ => 0
  | .comparison _ left right => max (levels left + left.parens) (levels right + right.parens)
  | .connective _ left right => max (levels left) (levels right) + 1
  | .not operand => levels operand + 1
  | .call _ args => argsLevels args + 1

/-- The levels of the deepest of some arguments. -/
def argsLevels : List Expr → Nat
  | [] => 0
  | arg :: args => max (levels arg) (argsLevels args)

end

/-! ## Counted levels -/

theorem parens_le_one (e : Expr) : e.parens ≤ 1 := by
  cases e <;> simp [parens]

mutual

/-- Where every level is counted, the height is twice the levels, and one for a comparison at the
top. -/
theorem height_le_levels : (e : Expr) → e.height ≤ 2 * e.levels + e.parens
  | .literal value => by
    rw [height, levels]
    omega
  | .path name => by
    rw [height]
    omega
  | .comparison op left right => by
    have hleft := height_le_levels left
    have hright := height_le_levels right
    -- A comparison below another one has taken a level for its parentheses.
    have hparens : (Expr.comparison op left right).parens = 1 := rfl
    rw [height, levels, hparens]
    omega
  | .connective op left right => by
    have hleft := height_le_levels left
    have hright := height_le_levels right
    have hleftParens := left.parens_le_one
    have hrightParens := right.parens_le_one
    rw [height, levels]
    omega
  | .not operand => by
    have hoperand := height_le_levels operand
    have hparens := operand.parens_le_one
    rw [height, levels]
    omega
  | .call name args => by
    have hargs := argsHeight_le_levels args
    rw [height, levels]
    omega

theorem argsHeight_le_levels : (args : List Expr) → argsHeight args ≤ 2 * argsLevels args + 2
  | [] => by
    rw [argsHeight]
    omega
  | arg :: args => by
    have harg := height_le_levels arg
    have hparens := arg.parens_le_one
    have hargs := argsHeight_le_levels args
    rw [argsHeight, argsLevels]
    omega

end

end Expr

/-! ## What reading counts -/

namespace Grammar

/-- The most left turns in an operand of a nesting. What is in parentheses is nested one level less
and can be a chain of `or` over one of `and`, each with as many operators as it is nested. -/
def operandTurns : Nat → Nat
  | 0 => 0
  | n + 1 => operandTurns n + 2 * n

/-- The most left turns in a link of a nesting; a link of a chain of `or` is a chain of `and`, with
at most as many operators as it is nested. -/
def linkTurns : Connective → Nat → Nat
  | .and, n => operandTurns n
  | .or, n => operandTurns n + n

/-- More nesting has room for more left turns in an operand. -/
theorem operandTurns_mono {m n : Nat} (h : m ≤ n) : operandTurns m ≤ operandTurns n := by
  induction h with
  | refl => exact Nat.le_refl _
  | step _ ih =>
    rw [operandTurns]
    omega

theorem linkTurns_mono (op : Connective) {m n : Nat} (h : m ≤ n) :
    linkTurns op m ≤ linkTurns op n := by
  have hmono := operandTurns_mono h
  cases op with
  | and => exact hmono
  | or =>
    rw [linkTurns, linkTurns]
    omega

/-- Both chains of a nesting on top of an operand of it. -/
theorem operandTurns_add_chains (n : Nat) : operandTurns n + 2 * n = n * (n + 1) := by
  induction n with
  | zero => rfl
  | succ n ih =>
    rw [operandTurns, ih, Nat.mul_comm n, Nat.mul_comm 2, ← Nat.mul_add]

/-- What is known of the tree of a part of a rule: `n` is the nesting of the part, `own` one if the
part can be a comparison at its top, and `turns` the most left turns in it. -/
structure Within (e : Expr) (n own turns : Nat) : Prop where
  height : e.height ≤ 2 * n + own + e.leftTurns
  turns : e.leftTurns ≤ turns

mutual

/-- A list is no higher than its nesting, for every bracket is counted. -/
theorem height_of_bracketed : ∀ {ks : List TokenKind} {items : List Literal} {n : Nat},
    Bracketed ks items n → Literal.itemsHeight items ≤ n
  | _, _, _, .empty => by
    rw [Literal.itemsHeight]
    omega
  | _, _, _, .items h => height_of_items h

/-- The items of a list lie one edge below it. -/
theorem height_of_items : ∀ {ks : List TokenKind} {items : List Literal} {n : Nat},
    Items ks items n → Literal.itemsHeight items ≤ n + 1
  | _, _, _, .one h => by
    have hitem := height_of_item h
    rw [Literal.itemsHeight, Literal.itemsHeight]
    omega
  | _, _, _, .more h h' => by
    have hitem := height_of_item h
    have hitems := height_of_items h'
    rw [Literal.itemsHeight]
    omega

theorem height_of_item : ∀ {ks : List TokenKind} {item : Literal} {n : Nat},
    Item ks item n → item.height ≤ n
  | _, _, _, .constant h => by
    cases h <;> simp [Literal.height]
  | _, _, _, .list h => by
    rw [Literal.height]
    exact height_of_bracketed h

end

mutual

/-- An operand has the left turns of the chains in its parentheses, which are nested one level less.
-/
theorem within_of_operand : ∀ {ks : List TokenKind} {e : Expr} {n : Nat},
    Operand ks e n → Within e n 0 (operandTurns n)
  | _, _, _, .constant h => by
    refine ⟨?_, ?_⟩
    · cases h <;> simp [Expr.height, Literal.height]
    · rw [Expr.leftTurns]
      omega
  | _, _, _, .list h => by
    have hitems := height_of_bracketed h
    refine ⟨?_, ?_⟩
    · rw [Expr.height, Literal.height]
      omega
    · rw [Expr.leftTurns]
      omega
  | _, _, _, .path _ => by
    refine ⟨?_, ?_⟩
    · rw [Expr.height]
      omega
    · rw [Expr.leftTurns]
      omega
  | _, _, _, .parens h => by
    -- The level of the parentheses makes up for the comparison that may stand at the top inside.
    obtain ⟨hi, hheight, hturns⟩ := within_of_chain h
    rw [linkTurns] at hturns
    refine ⟨?_, ?_⟩
    · omega
    · rw [operandTurns]
      omega
  | _, _, _, .callEmpty _ => by
    refine ⟨?_, ?_⟩
    · rw [Expr.height, Expr.argsHeight]
      omega
    · rw [Expr.leftTurns, Expr.argsLeftTurns]
      omega
  | _, _, _, .call _ h => by
    obtain ⟨hheight, hturns⟩ := within_of_args h
    refine ⟨?_, ?_⟩
    · rw [Expr.height, Expr.leftTurns]
      omega
    · rw [Expr.leftTurns, operandTurns]
      omega

/-- Every argument is a whole chain, nested one level less than its call. -/
theorem within_of_args : ∀ {ks : List TokenKind} {args : List Expr} {n : Nat}, Args ks args n →
    Expr.argsHeight args ≤ 2 * n + 2 + Expr.argsLeftTurns args ∧
      Expr.argsLeftTurns args ≤ operandTurns n + 2 * n
  | _, _, _, .one h => by
    obtain ⟨hi, hheight, hturns⟩ := within_of_chain h
    rw [linkTurns] at hturns
    simp only [Expr.argsHeight, Expr.argsLeftTurns]
    omega
  | _, _, _, @Args.more _ _ _ _ _ n n' h h' => by
    obtain ⟨hi, hheight, hturns⟩ := within_of_chain h
    obtain ⟨hheight', hturns'⟩ := within_of_args h'
    have hmono := operandTurns_mono (Nat.le_max_left n n')
    have hmono' := operandTurns_mono (Nat.le_max_right n n')
    rw [linkTurns] at hturns
    simp only [Expr.argsHeight, Expr.argsLeftTurns]
    omega

/-- A comparison adds one edge that is not counted, and it can do so only once before the next
parentheses. -/
theorem within_of_compared : ∀ {ks : List TokenKind} {e : Expr} {n : Nat},
    Compared ks e n → Within e n 1 (operandTurns n)
  | _, _, _, .operand h => by
    obtain ⟨hheight, hturns⟩ := within_of_operand h
    exact ⟨by omega, hturns⟩
  | _, _, _, @Compared.comparison _ _ _ _ n n' _ h h' => by
    obtain ⟨hheight, hturns⟩ := within_of_operand h
    obtain ⟨hheight', hturns'⟩ := within_of_operand h'
    have hmono := operandTurns_mono (Nat.le_max_left n n')
    have hmono' := operandTurns_mono (Nat.le_max_right n n')
    refine ⟨?_, ?_⟩
    · rw [Expr.height, Expr.leftTurns]
      omega
    · rw [Expr.leftTurns]
      omega

/-- Every not adds an edge and a level. -/
theorem within_of_negated : ∀ {ks : List TokenKind} {e : Expr} {n : Nat},
    Negated ks e n → Within e n 1 (operandTurns n)
  | _, _, _, .compared h => within_of_compared h
  | _, _, _, .not h => by
    obtain ⟨hheight, hturns⟩ := within_of_negated h
    refine ⟨?_, ?_⟩
    · rw [Expr.height, Expr.leftTurns]
      omega
    · rw [Expr.leftTurns, operandTurns]
      omega

/-- A link of "or" is a chain of "and", with a left turn for each of its operators. -/
theorem within_of_link : ∀ {op : Connective} {ks : List TokenKind} {e : Expr} {n : Nat},
    Link op ks e n → Within e n 1 (linkTurns op n)
  | _, _, _, _, .and h => within_of_negated h
  | _, _, _, _, .or h => by
    obtain ⟨hi, hheight, hturns⟩ := within_of_chain h
    rw [linkTurns] at hturns
    exact ⟨hheight, by rw [linkTurns]; omega⟩

/-- The `i` operators of a chain lie above its first link, which can be nested as deep as the chain
itself. -/
theorem within_of_chain : ∀ {op : Connective} {ks : List TokenKind} {e : Expr} {i n : Nat},
    Chain op ks e i n → i ≤ n ∧ Within e n 1 (i + linkTurns op n)
  | _, _, _, _, _, .first h => by
    obtain ⟨hheight, hturns⟩ := within_of_link h
    exact ⟨Nat.zero_le _, hheight, by omega⟩
  | op, _, _, _, _, @Chain.next _ _ _ _ _ i n n' h h' => by
    obtain ⟨hi, hheight, hturns⟩ := within_of_chain h
    obtain ⟨hheight', hturns'⟩ := within_of_link h'
    have hmono := linkTurns_mono op (Nat.le_max_left n (i + 1 + n'))
    -- The link on the right is nested `n'` levels by itself, and `i + 1` more in the chain.
    have hmono' : linkTurns op n' ≤ linkTurns op (max n (i + 1 + n')) := by
      refine linkTurns_mono op ?_
      omega
    refine ⟨by omega, ?_, ?_⟩
    · -- Above the link on the right the operator is counted; above the part on the left it is a turn.
      rw [Expr.height, Expr.leftTurns]
      omega
    · rw [Expr.leftTurns]
      omega

end

end Grammar

/-- What a text that is read says is a chain of `or` nested within the limit. -/
theorem exists_chain_of_parse {source : String} {e : Expr} (h : parse source = .ok e) :
    ∃ ks i n, Grammar.Chain .or ks e i n ∧ n ≤ maxDepth := by
  unfold parse at h
  cases hscan : Token.scan source with
  | error fault =>
    rw [hscan] at h
    cases h
  | ok tokens =>
    rw [hscan] at h
    obtain ⟨i, n, hchain, hn⟩ := Grammar.reads_readChain_iff.mp (Grammar.ofTokens_eq_ok_iff.mp h)
    exact ⟨_, i, n, hchain, hn⟩

end AccessRules.Rule
