import AccessRules.Proofs.Rule.Grammar.Overflow
import AccessRules.Proofs.Rule.Token.Spelling

/-!
# The canonical text of a rule is read back

The text of a tree puts parentheses around every operator, so the grammar derives exactly one tree
from it, and the texts of its parts never run into each other:

> `parse_text`: the text of a printable rule is read back as the same rule while its nesting is within
> `maxDepth`, and refused because of the nesting when it is beyond.

A rule is printable when a text for it exists at all: the language has no signs before integers and
no escapes in strings, a number with a fraction is read to the nearest one, and names have to be names.
-/

namespace AccessRules.Rule

open Grammar

/-! ## Printable rules -/

mutual

/-- Whether a constant has a text that is read back: no part of it is a number with a fraction, an
integer below zero, or a string that holds both quotes. -/
def Literal.isPrintable : Literal → Bool
  | .null => true
  | .bool _ => true
  | .int i => 0 ≤ i.toInt
  | .float _ => false
  | .string s => !(s.toList.contains '"' && s.toList.contains '\'')
  | .list items => Literal.arePrintable items

/-- Whether all items of a list are printable. -/
def Literal.arePrintable : List Literal → Bool
  | [] => true
  | item :: items => item.isPrintable && Literal.arePrintable items

end

mutual

/-- Whether all constants in a rule are printable and all names in it are names. -/
def Expr.isPrintable : Expr → Bool
  | .literal value => value.isPrintable
  | .path name => isName name
  | .comparison _ left right => left.isPrintable && right.isPrintable
  | .connective _ left right => left.isPrintable && right.isPrintable
  | .not operand => operand.isPrintable
  | .call name args => isName name && Expr.arePrintable args

/-- Whether all arguments are printable. -/
def Expr.arePrintable : List Expr → Bool
  | [] => true
  | arg :: args => arg.isPrintable && Expr.arePrintable args

end

/-! ## The nesting of a text -/

mutual

/-- How deep the text of a constant is nested. -/
def Literal.textNesting : Literal → Nat
  | .list items => Literal.itemsNesting items + 1
  | _ => 0

/-- How deep the texts of the items of a list are nested. -/
def Literal.itemsNesting : List Literal → Nat
  | [] => 0
  | item :: items => max item.textNesting (Literal.itemsNesting items)

end

mutual

/-- How deep the text of a rule is nested, with the parentheses around its operators. -/
def Expr.textNesting : Expr → Nat
  | .literal value => value.textNesting
  | .path _ => 0
  | .comparison _ left right => max left.textNesting right.textNesting + 1
  | .connective _ left right => max left.textNesting (right.textNesting + 1) + 1
  | .not operand => operand.textNesting + 2
  | .call _ args => Expr.argsNesting args + 1

/-- How deep the texts of arguments are nested. -/
def Expr.argsNesting : List Expr → Nat
  | [] => 0
  | arg :: args => max arg.textNesting (Expr.argsNesting args)

end

/-! ## Constants -/

mutual

/-- The text of a printable constant spells it as an item of a list. -/
theorem spells_item : (v : Literal) → v.isPrintable = true →
    ∃ ks, Spells v.text.toList ks ∧ Item ks v v.textNesting
  | .null, _ => ⟨[.null], spells_of_written (.fixed rfl), .constant .null⟩
  | .bool true, _ => ⟨[.boolean true], spells_of_written (.fixed rfl), .constant (.boolean true)⟩
  | .bool false, _ => ⟨[.boolean false], spells_of_written (.fixed rfl), .constant (.boolean false)⟩
  | .int i, h => ⟨_, spells_integer (of_decide_eq_true h), .constant (.integer i)⟩
  | .float _, h => by cases h
  | .string s, h => by
    refine ⟨_, spells_string ?_, .constant (.string s)⟩
    intro hboth
    rw [Literal.isPrintable] at h
    simp [hboth] at h
  | .list [], _ => ⟨_, spells_nil.brackets, .list .empty⟩
  | .list (item :: items), h => by
    obtain ⟨ks, hspells, hitems⟩ := spells_items (item :: items) h nofun
    refine ⟨.leftBracket :: ks ++ [.rightBracket], ?_, .list (.items hitems)⟩
    rw [Literal.text, String.toList_append, String.toList_append]
    exact hspells.brackets

/-- The text of some items spells tokens that derive them, with a comma between two. -/
theorem spells_items : (vs : List Literal) → Literal.arePrintable vs = true → vs ≠ [] →
    ∃ ks, Spells (Literal.itemsText vs).toList ks ∧ Items ks vs (Literal.itemsNesting vs)
  | [], _, hne => absurd rfl hne
  | [v], h, _ => by
    obtain ⟨ks, hspells, hitem⟩ := spells_item v (Bool.and_eq_true_iff.mp h).1
    refine ⟨ks, hspells, ?_⟩
    rw [Literal.itemsNesting, Literal.itemsNesting, Nat.max_zero]
    exact .one hitem
  | v :: w :: ws, h, _ => by
    obtain ⟨hv, hws⟩ := Bool.and_eq_true_iff.mp h
    obtain ⟨ks, hspells, hitem⟩ := spells_item v hv
    obtain ⟨ks', hspells', hitems⟩ := spells_items (w :: ws) hws nofun
    refine ⟨ks ++ .comma :: ks', ?_, .more hitem hitems⟩
    rw [Literal.itemsText, String.toList_append, String.toList_append, List.append_assoc]
    · exact hspells.comma hspells'
    · nofun

end

/-- What may stand in a list may stand on its own, for the grammar has the same constants and lists
in both places. -/
theorem operand_of_item {ks : List TokenKind} {v : Literal} {n : Nat} (h : Item ks v n) :
    Operand ks (.literal v) n := by
  cases h with
  | constant h => exact .constant h
  | list h => exact .list h

/-! ## Rules -/

/-- An operand is a whole rule. -/
theorem chain_of_operand {ks : List TokenKind} {e : Expr} {n : Nat} (h : Operand ks e n) :
    Chain .or ks e 0 n :=
  .first (.or (.first (.and (.compared (.operand h)))))

/-- Two operands with a connective between them are a chain of one operator. -/
theorem chain_of_operands {ks ks' : List TokenKind} {left right : Expr} {n n' : Nat}
    (op : Connective) (h : Operand ks left n) (h' : Operand ks' right n') :
    ∃ i, Chain .or (ks ++ .connective op :: ks') (.connective op left right) i (max n (n' + 1)) := by
  have hleft : Link .and ks left n := .and (.compared (.operand h))
  have hright : Link .and ks' right n' := .and (.compared (.operand h'))
  rw [Nat.add_comm n' 1]
  -- Either way the right operand is counted one level deeper, but for `and` the chain is a link of
  -- one of `or`.
  cases op with
  | and => exact ⟨0, .first (.or (.next (.first hleft) hright))⟩
  | or => exact ⟨1, .next (.first (.or (.first hleft))) (.or (.first hright))⟩

mutual

/-- The text of a printable rule spells it as an operand. -/
theorem spells_operand : (e : Expr) → e.isPrintable = true →
    ∃ ks, Spells e.text.toList ks ∧ Operand ks e e.textNesting
  | .literal v, h => by
    obtain ⟨ks, hspells, hitem⟩ := spells_item v h
    exact ⟨ks, hspells, operand_of_item hitem⟩
  | .path name, h => ⟨_, spells_name h, .path name⟩
  | .comparison op left right, h => by
    obtain ⟨hl, hr⟩ := Bool.and_eq_true_iff.mp h
    obtain ⟨ks, hspells, hleft⟩ := spells_operand left hl
    obtain ⟨ks', hspells', hright⟩ := spells_operand right hr
    -- The text puts every comparison in parentheses, so it is an operand again, one level deeper.
    have hcompared := Compared.comparison op hleft hright
    have hchain : Chain .or _ _ 0 _ := .first (.or (.first (.and (.compared hcompared))))
    have htext := (hspells.space ((spells_comparison op).space hspells')).parens
    refine ⟨_, ?_, .parens hchain⟩
    simpa [Expr.text, String.toList_append] using htext
  | .connective op left right, h => by
    obtain ⟨hl, hr⟩ := Bool.and_eq_true_iff.mp h
    obtain ⟨ks, hspells, hleft⟩ := spells_operand left hl
    obtain ⟨ks', hspells', hright⟩ := spells_operand right hr
    obtain ⟨i, hchain⟩ := chain_of_operands op hleft hright
    have htext := (hspells.space ((spells_connective op).space hspells')).parens
    refine ⟨_, ?_, .parens hchain⟩
    simpa [Expr.text, String.toList_append] using htext
  | .not operand, h => by
    obtain ⟨ks, hspells, hoperand⟩ := spells_operand operand h
    have hnot := Negated.not (.compared (.operand hoperand))
    have hchain : Chain .or _ _ 0 _ := .first (.or (.first (.and hnot)))
    have htext := (spells_not.space hspells).parens
    refine ⟨_, ?_, .parens hchain⟩
    simpa [Expr.text, String.toList_append] using htext
  | .call name [], h => by
    have hname := spells_name (Bool.and_eq_true_iff.mp h).1
    refine ⟨_, ?_, .callEmpty name⟩
    have htext := hname.call spells_nil
    simpa [Expr.text, Expr.argsText, String.toList_append] using htext
  | .call name (arg :: args), h => by
    obtain ⟨hn, ha⟩ := Bool.and_eq_true_iff.mp h
    have hname := spells_name hn
    obtain ⟨ks, hspells, hargs⟩ := spells_args (arg :: args) ha nofun
    refine ⟨_, ?_, .call name hargs⟩
    have htext := hname.call hspells
    simpa [Expr.text, String.toList_append] using htext

theorem spells_args : (es : List Expr) → Expr.arePrintable es = true → es ≠ [] →
    ∃ ks, Spells (Expr.argsText es).toList ks ∧ Args ks es (Expr.argsNesting es)
  | [], _, hne => absurd rfl hne
  | [e], h, _ => by
    obtain ⟨ks, hspells, hoperand⟩ := spells_operand e (Bool.and_eq_true_iff.mp h).1
    refine ⟨ks, hspells, ?_⟩
    rw [Expr.argsNesting, Expr.argsNesting, Nat.max_zero]
    exact .one (chain_of_operand hoperand)
  | e :: f :: fs, h, _ => by
    obtain ⟨he, hfs⟩ := Bool.and_eq_true_iff.mp h
    obtain ⟨ks, hspells, hoperand⟩ := spells_operand e he
    obtain ⟨ks', hspells', hargs⟩ := spells_args (f :: fs) hfs nofun
    refine ⟨ks ++ .comma :: ks', ?_, .more (chain_of_operand hoperand) hargs⟩
    rw [Expr.argsText, String.toList_append, String.toList_append, List.append_assoc]
    · exact hspells.comma hspells'
    · nofun

end

/-! ## The whole text -/

/-- **The canonical text of a rule is read back as the same rule**, or refused because it nests too
deeply; which of the two is known from the tree alone. -/
theorem parse_text {e : Expr} (h : e.isPrintable = true) :
    (e.textNesting ≤ maxDepth → parse e.text = .ok e) ∧
      (maxDepth < e.textNesting →
        ∃ position, parse e.text = .error ⟨position, .nestedTooDeeply⟩) := by
  obtain ⟨ks, hspells, hoperand⟩ := spells_operand e h
  obtain ⟨tokens, position, rfl, hscan⟩ := scan_of_spells hspells
  unfold parse
  rw [hscan]
  exact ofTokens_of_chain (chain_of_operand hoperand)

/-- A rule with every form of operator and constant, quotes and macros included, is read back; one
with 129 times `not` puts as many parentheses around them and is refused. -/
theorem parse_text_mixed_and_deep :
    let e : Expr := .connective .or
      (.not (.comparison .member (.path "@request.auth.role")
        (.literal (.list [.string "it's", .string "a \"b\"", .list [], .null]))))
      (.connective .and (.call "@has_role" [.literal (.string "admin")])
        (.comparison .le (.literal (.int 10)) (.path "größe.x")))
    let deep : Expr := Nat.repeat Expr.not 129 (.path "a")
    (e.isPrintable = true ∧ e.textNesting = 6 ∧ parse e.text = .ok e) ∧
      (deep.isPrintable = true ∧ deep.textNesting = 258 ∧
        ∃ position, parse deep.text = .error ⟨position, .nestedTooDeeply⟩) := by
  intro e deep
  have he : e.isPrintable = true := by decide
  have hnesting : e.textNesting = 6 := rfl
  have hdeep : deep.isPrintable = true := by decide +kernel
  have hbeyond : deep.textNesting = 258 := by decide +kernel
  refine ⟨⟨he, hnesting, (parse_text he).1 ?_⟩, ⟨hdeep, hbeyond, (parse_text hdeep).2 ?_⟩⟩
  · rw [hnesting]
    decide
  · rw [hbeyond]
    decide

end AccessRules.Rule
