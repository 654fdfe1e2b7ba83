import AccessRules.Proofs.Rule.Grammar.Overflow
import AccessRules.Proofs.Rule.Height
import AccessRules.Proofs.Rule.Token.Spelling

/-!
# Steep rules

The nesting limit does not keep the height of a tree linear. In the text `f(…)<a and a … or a …` the
call is the first link of a chain of `and`, and that chain the first link of a chain of `or`; both
chains may have as many operators as the limit leaves, because none of them is counted before the
call has been read. Inside the call the same can be done again, one level deeper.

> `parse_steep`: for each nesting `n` within the limit a text is read whose tree has height
> `n * n + 3 * n + 1`.
> `height_of_parse`: no text that is read has a tree that is higher, and one in which the levels do
> not exceed the limit, each connective counted for both of its parts, is as low as `2 n + 1`.
-/

namespace AccessRules.Rule

open Grammar

/-! ## Texts in pieces -/

/-- `Scans text ks`: wherever the text stands, it is scanned into tokens of these kinds. -/
def Scans (text : List Char) (ks : List TokenKind) : Prop :=
  ∀ position found rest, ∃ position' tokens, kinds tokens = ks ∧
    Token.scanFrom position 0 found (text ++ rest) =
      Token.scanFrom position' 0 (tokens.reverse ++ found) rest

theorem scans_nil : Scans [] [] := fun position _ _ => ⟨position, [], rfl, rfl⟩

/-- Texts that are scanned wherever they stand can be put one behind the other. -/
theorem Scans.append {text text' : List Char} {ks ks' : List TokenKind} (h : Scans text ks)
    (h' : Scans text' ks') : Scans (text ++ text') (ks ++ ks') := by
  intro position found rest
  obtain ⟨position₁, tokens, hkinds, hscan⟩ := h position found (text' ++ rest)
  obtain ⟨position₂, tokens', hkinds', hscan'⟩ := h' position₁ (tokens.reverse ++ found) rest
  refine ⟨position₂, tokens ++ tokens', ?_, ?_⟩
  · rw [kinds, List.map_append, ← kinds, ← kinds, hkinds, hkinds']
  · rw [List.append_assoc, hscan, hscan', List.reverse_append, List.append_assoc]

/-- A text that scans into a chain nested within the limit is read as that chain. -/
theorem parse_of_scans {source : String} {ks : List TokenKind} {e : Expr} {i n : Nat}
    (hscans : Scans source.toList ks) (hchain : Chain .or ks e i n) (hn : n ≤ maxDepth) :
    parse source = .ok e := by
  have hspells : Spells source.toList ks := fun position found rest _ => hscans position found rest
  obtain ⟨tokens, position, rfl, hscan⟩ := scan_of_spells hspells
  unfold parse
  rw [hscan]
  exact (ofTokens_of_chain hchain).1 hn

/-! ## Long chains -/

/-- A chain over a first link, with the path `a` for every other link. -/
def chainOver (op : Connective) (first : Expr) : Nat → Expr
  | 0 => first
  | i + 1 => .connective op (chainOver op first i) (.path "a")

/-- What stands behind the first link of such a chain. -/
def linksText (op : Connective) : Nat → String
  | 0 => ""
  | i + 1 => linksText op i ++ (op.word ++ " a ")

/-- Its tokens. -/
def linksKinds (op : Connective) : Nat → List TokenKind
  | 0 => []
  | i + 1 => linksKinds op i ++ [.connective op, .name "a"]

/-- Every link puts the first one an edge deeper. -/
theorem height_chainOver (op : Connective) (first : Expr) (i : Nat) :
    (chainOver op first i).height = first.height + i := by
  induction i with
  | zero => rfl
  | succ i ih =>
    have hpath : (Expr.path "a").height = 0 := rfl
    rw [chainOver, Expr.height, ih, hpath]
    omega

theorem scans_linksText (op : Connective) (i : Nat) :
    Scans (linksText op i).toList (linksKinds op i) := by
  induction i with
  | zero => exact scans_nil
  | succ i ih =>
    rw [linksText, String.toList_append]
    refine ih.append ?_
    intro position found rest
    cases op with
    | and =>
      refine ⟨position + 6, [⟨.connective .and, position⟩, ⟨.name "a", position + 4⟩], rfl, ?_⟩
      with_unfolding_all rfl
    | or =>
      refine ⟨position + 5, [⟨.connective .or, position⟩, ⟨.name "a", position + 3⟩], rfl, ?_⟩
      with_unfolding_all rfl

/-- Operators up to the nesting of the first link do not nest the chain deeper. -/
theorem chain_chainOver {op : Connective} {ks : List TokenKind} {first : Expr} {n : Nat}
    (h : Link op ks first n) (i : Nat) (hi : i ≤ n) :
    Chain op (ks ++ linksKinds op i) (chainOver op first i) i n := by
  have hpath : Link op [.name "a"] (.path "a") 0 := by
    have hnegated : Negated [.name "a"] (.path "a") 0 := .compared (.operand (.path "a"))
    cases op with
    | and => exact .and hnegated
    | or => exact .or (.first (.and hnegated))
  -- Every further path is nested by zero, so an operator takes one of the levels that the first
  -- link has anyway.
  induction i with
  | zero =>
    rw [linksKinds, List.append_nil]
    exact .first h
  | succ i ih =>
    have hnext := Chain.next (ih (by omega)) hpath
    rw [List.append_assoc, Nat.add_zero, Nat.max_eq_left hi] at hnext
    exact hnext

/-! ## The steep rules -/

/-- The steep rule of a nesting. -/
def steep : Nat → Expr
  | 0 => .comparison .lt (.path "a") (.path "b")
  | n + 1 => chainOver .or (chainOver .and
      (.comparison .lt (.call "f" [steep n]) (.path "a")) (n + 1)) (n + 1)

/-- Its text. -/
def steepText : Nat → String
  | 0 => "a<b "
  | n + 1 => "f(" ++ steepText n ++ ")<a " ++ linksText .and (n + 1) ++ linksText .or (n + 1)

/-- The tokens of its text. -/
def steepKinds : Nat → List TokenKind
  | 0 => [.name "a", .comparison .lt, .name "b"]
  | n + 1 => [.name "f", .leftParen] ++ steepKinds n ++
      [.rightParen, .comparison .lt, .name "a"] ++ linksKinds .and (n + 1) ++
        linksKinds .or (n + 1)

/-- The height grows with the square of the nesting, because every level brings two chains as long
as it is deep. -/
theorem height_steep (n : Nat) : (steep n).height = n * n + 3 * n + 1 := by
  induction n with
  | zero => rfl
  | succ n ih =>
    have hpath : (Expr.path "a").height = 0 := rfl
    rw [steep, height_chainOver, height_chainOver, Expr.height, hpath, Expr.height,
      Expr.argsHeight, Expr.argsHeight, ih, Nat.add_mul, Nat.mul_add]
    omega

theorem scans_steepText (n : Nat) : Scans (steepText n).toList (steepKinds n) := by
  induction n with
  | zero =>
    intro position found rest
    refine ⟨position + 4, [⟨.name "a", position⟩, ⟨.comparison .lt, position + 1⟩,
      ⟨.name "b", position + 2⟩], rfl, ?_⟩
    with_unfolding_all rfl
  | succ n ih =>
    have hcall : Scans "f(".toList [.name "f", .leftParen] := by
      intro position found rest
      refine ⟨position + 2, [⟨.name "f", position⟩, ⟨.leftParen, position + 1⟩], rfl, ?_⟩
      with_unfolding_all rfl
    have hclose : Scans ")<a ".toList [.rightParen, .comparison .lt, .name "a"] := by
      intro position found rest
      refine ⟨position + 4, [⟨.rightParen, position⟩, ⟨.comparison .lt, position + 1⟩,
        ⟨.name "a", position + 2⟩], rfl, ?_⟩
      with_unfolding_all rfl
    rw [steepText, String.toList_append, String.toList_append, String.toList_append,
      String.toList_append]
    exact (((hcall.append ih).append hclose).append (scans_linksText .and _)).append
      (scans_linksText .or _)

/-- The grammar derives the tree with a nesting of `n`, although its height is more than the square
of that. -/
theorem chain_steep (n : Nat) : ∃ i, Chain .or (steepKinds n) (steep n) i n := by
  induction n with
  | zero =>
    have hcompared := Compared.comparison .lt (.path "a") (.path "b")
    exact ⟨0, .first (.or (.first (.and (.compared hcompared))))⟩
  | succ n ih =>
    obtain ⟨i, hchain⟩ := ih
    have hcompared := Compared.comparison .lt (.call "f" (.one hchain)) (.path "a")
    rw [Nat.max_zero] at hcompared
    -- Both chains are as long as the call in the first link is nested, so neither nests the rule
    -- deeper.
    have hand := chain_chainOver (.and (.compared hcompared)) (n + 1) (Nat.le_refl _)
    have hor := chain_chainOver (.or hand) (n + 1) (Nat.le_refl _)
    refine ⟨n + 1, ?_⟩
    simpa [steep, steepKinds] using hor

/-- **Within the limit a steep rule is read**, however high its tree is. -/
theorem parse_steep {n : Nat} (h : n ≤ maxDepth) : parse (steepText n) = .ok (steep n) := by
  obtain ⟨i, hchain⟩ := chain_steep n
  exact parse_of_scans (scans_steepText n) hchain h

/-! ## The bound -/

/-- **Only left turns escape the nesting limit.** The tree of a text that is read has at most twice as
many edges on top of each other as the limit and one, and one more for each left turn; up to
`maxDepth * (maxDepth + 1)` left turns come together. A tree whose levels stay within the limit when
left turns are counted too is at most twice as high as the limit and one. -/
theorem height_of_parse {source : String} {e : Expr} (h : parse source = .ok e) :
    e.height ≤ 2 * maxDepth + 1 + e.leftTurns ∧ e.leftTurns ≤ maxDepth * (maxDepth + 1) ∧
      (e.levels ≤ maxDepth → e.height ≤ 2 * maxDepth + 1) := by
  obtain ⟨ks, i, n, hchain, hn⟩ := exists_chain_of_parse h
  obtain ⟨hi, hheight, hturns⟩ := within_of_chain hchain
  -- The left turns of a whole chain are those of an operand and of the two chains on top of it.
  have hsum := operandTurns_add_chains n
  have hlimit : n * (n + 1) ≤ maxDepth * (maxDepth + 1) :=
    Nat.mul_le_mul hn (Nat.succ_le_succ hn)
  rw [linkTurns] at hturns
  refine ⟨by omega, by omega, ?_⟩
  intro hlevels
  have hcounted := e.height_le_levels
  have hparens := e.parens_le_one
  omega

/-- A rule with every form of nesting. -/
theorem height_of_parse_mixed :
    let e : Expr := .connective .or
      (.not (.connective .and (.path "a") (.comparison .lt (.path "b") (.path "c"))))
      (.comparison .member (.call "f" [.path "x"]) (.literal (.list [.list [.int 1]])))
    parse "not (a and b < c) or f(x) in [[1]]" = .ok e ∧ e.levels = 3 ∧
      e.height ≤ 2 * maxDepth + 1 := by
  intro e
  have hparse : parse "not (a and b < c) or f(x) in [[1]]" = .ok e := by
    with_unfolding_all rfl
  have hlevels : e.levels = 3 := rfl
  obtain ⟨-, -, hheight⟩ := height_of_parse hparse
  exact ⟨hparse, hlevels, hheight (by rw [hlevels]; decide)⟩

/-- The steep rule of nesting 22, of fewer than three thousand characters, is read, and its tree is
higher than twice the limit and one. -/
theorem steep_above_limit :
    parse (steepText 22) = .ok (steep 22) ∧ (steep 22).height = 551 ∧ 2 * maxDepth + 1 = 513 :=
  ⟨parse_steep (by decide), height_steep 22, rfl⟩

end AccessRules.Rule
