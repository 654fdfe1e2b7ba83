import AccessRules.Proofs.Rule.Grammar.Basic
import AccessRules.Proofs.Rule.Token.Layout

/-!
# How a rule spells its tokens

The texts of names, constants and signs are scanned back into the tokens that they are written for,
as long as nothing stands right behind them that they could run into:

> `Spells text ks`: before a blank, a parenthesis, a bracket, a comma or the end, the text is scanned
> into tokens of the kinds `ks`, wherever it stands.

A token that is written as a text is spelled by it, since no token goes on with what is clear
(`spells_of_written`); the rest of the module puts such texts together.
-/

namespace AccessRules.Rule

open Number Text Grammar

/-! ## Texts that are read apart from what follows -/

/-- The characters that end a name, a number or a sign. -/
def separators : List Char :=
  [' ', '(', ')', '[', ']', ',']

/-- What no token can run into. -/
def Clear (rest : List Char) : Prop :=
  ∀ c ∈ rest.head?, c ∈ separators

theorem clear_nil : Clear [] := by
  intro c hc
  cases hc

/-- No token can run into a separator. -/
theorem clear_cons {c : Char} {rest : List Char} (h : c ∈ separators) : Clear (c :: rest) := by
  intro d hd
  cases hd
  exact h

/-- Every token stops before what is clear. -/
theorem Clear.stops {rest : List Char} (h : Clear rest) (k : TokenKind) : Stops k rest := by
  have hall : separators.all isBoundary = true := by decide +kernel
  exact stops_of_boundary k fun c hc => List.all_eq_true.mp hall c (h c hc)

/-- `Spells text ks`: before anything clear, the text is scanned into tokens of these kinds. -/
def Spells (text : List Char) (ks : List TokenKind) : Prop :=
  ∀ position found rest, Clear rest → ∃ position' tokens, kinds tokens = ks ∧
    Token.scanFrom position 0 found (text ++ rest) =
      Token.scanFrom position' 0 (tokens.reverse ++ found) rest

theorem spells_nil : Spells [] [] := fun position _ _ _ => ⟨position, [], rfl, rfl⟩

/-- A token that is written as a text is spelled by it. -/
theorem spells_of_written {k : TokenKind} {text : List Char} (h : Written k text) :
    Spells text [k] := by
  intro position found rest hrest
  exact ⟨position + text.length, [⟨k, position⟩], rfl,
    scanFrom_written position found h (hrest.stops k)⟩

/-- Texts stand side by side when the second begins with a separator. -/
theorem Spells.append {text text' : List Char} {ks ks' : List TokenKind} {c : Char}
    (h : Spells text ks) (hc : c ∈ separators) (h' : Spells (c :: text') ks') :
    Spells (text ++ c :: text') (ks ++ ks') := by
  intro position found rest hrest
  obtain ⟨position₁, tokens, rfl, hscan⟩ := h position found (c :: text' ++ rest) (clear_cons hc)
  obtain ⟨position₂, tokens', rfl, hscan'⟩ := h' position₁ (tokens.reverse ++ found) rest hrest
  refine ⟨position₂, tokens ++ tokens', List.map_append, ?_⟩
  rw [List.append_assoc, hscan, hscan', List.reverse_append, List.append_assoc]

/-- A blank before a text is passed over. -/
theorem Spells.blank {text : List Char} {ks : List TokenKind} (h : Spells text ks) :
    Spells (' ' :: text) ks := by
  intro position found rest hrest
  obtain ⟨position', tokens, hkinds, hscan⟩ := h (position + 1) found rest hrest
  refine ⟨position', tokens, hkinds, ?_⟩
  rw [List.cons_append, Token.scanFrom, if_pos (by decide)]
  exact hscan

/-- A character that is a token by itself, whatever follows. -/
theorem Spells.cons {c : Char} {k : TokenKind} (hc : isBlank c = false)
    (hread : ∀ rest, Lexeme.read c rest = .ok (k, 0)) {text : List Char} {ks : List TokenKind}
    (h : Spells text ks) : Spells (c :: text) (k :: ks) := by
  intro position found rest hrest
  obtain ⟨position', tokens, rfl, hscan⟩ := h (position + 1) (⟨k, position⟩ :: found) rest hrest
  refine ⟨position', ⟨k, position⟩ :: tokens, rfl, ?_⟩
  rw [List.cons_append, Token.scanFrom, if_neg (by simp [hc]), hread, List.reverse_cons,
    List.append_assoc]
  exact hscan

/-- Two texts with a space between them spell the tokens of both. -/
theorem Spells.space {text text' : List Char} {ks ks' : List TokenKind} (h : Spells text ks)
    (h' : Spells text' ks') : Spells (text ++ ' ' :: text') (ks ++ ks') :=
  h.append (by decide) h'.blank

theorem Spells.comma {text text' : List Char} {ks ks' : List TokenKind} (h : Spells text ks)
    (h' : Spells text' ks') : Spells (text ++ ',' :: ' ' :: text') (ks ++ .comma :: ks') :=
  h.append (by decide) (h'.blank.cons (by decide) fun _ => rfl)

/-- A text in parentheses spells its tokens between the two. -/
theorem Spells.parens {text : List Char} {ks : List TokenKind} (h : Spells text ks) :
    Spells ('(' :: text ++ [')']) (.leftParen :: ks ++ [.rightParen]) := by
  have hclose : Spells [')'] [.rightParen] := spells_nil.cons (by decide) fun _ => rfl
  exact (h.append (by decide) hclose).cons (by decide) fun _ => rfl

theorem Spells.brackets {text : List Char} {ks : List TokenKind} (h : Spells text ks) :
    Spells ('[' :: text ++ [']']) (.leftBracket :: ks ++ [.rightBracket]) := by
  have hclose : Spells [']'] [.rightBracket] := spells_nil.cons (by decide) fun _ => rfl
  exact (h.append (by decide) hclose).cons (by decide) fun _ => rfl

/-- A text in parentheses right behind a name. -/
theorem Spells.call {name text : List Char} {ks ks' : List TokenKind} (h : Spells name ks)
    (h' : Spells text ks') :
    Spells (name ++ '(' :: text ++ [')']) (ks ++ .leftParen :: ks' ++ [.rightParen]) := by
  rw [List.append_assoc, List.append_assoc]
  exact h.append (by decide) h'.parens

/-- A text that spells tokens is scanned into them and the end. -/
theorem scan_of_spells {source : String} {ks : List TokenKind} (h : Spells source.toList ks) :
    ∃ tokens position, kinds tokens = ks ∧
      Token.scan source = .ok (tokens ++ [⟨.eof, position⟩]) := by
  obtain ⟨position, tokens, hkinds, hscan⟩ := h 0 [] [] clear_nil
  refine ⟨tokens, position, hkinds, ?_⟩
  rw [List.append_nil, List.append_nil, Token.scanFrom, List.reverse_cons,
    List.reverse_reverse] at hscan
  exact hscan

/-! ## Words and signs -/

/-- A name is spelled as itself, if it is one. -/
theorem spells_name {text : String} (h : isName text = true) : Spells text.toList [.name text] :=
  spells_of_written (.name h)

theorem spells_comparison (op : Comparison) : Spells op.sign.toList [.comparison op] :=
  spells_of_written (.fixed rfl)

theorem spells_connective (op : Connective) : Spells op.word.toList [.connective op] :=
  spells_of_written (.fixed rfl)

theorem spells_not : Spells "not".toList [.not] :=
  spells_of_written (.fixed rfl)

/-! ## Constants -/

/-- An integer from zero on is written with the digits of a natural number. -/
theorem toString_toInt {i : Int64} (h : 0 ≤ i.toInt) :
    (toString i.toInt).toList = Nat.toDigits 10 i.toInt.toNat := by
  obtain ⟨n, hn⟩ := Int.eq_ofNat_of_zero_le h
  rw [hn]
  show (toString n).toList = _
  rw [Nat.toString_eq_repr, Nat.toList_repr, Int.toNat_natCast]

/-- An integer that is not negative is spelled as its digits; a minus sign would be no part of it.
-/
theorem spells_integer {i : Int64} (h : 0 ≤ i.toInt) :
    Spells (toString i.toInt).toList [.integer i] := by
  rw [toString_toInt h]
  refine spells_of_written (.integer i Nat.toDigits_ne_nil ?_ ?_)
  · intro c hc
    rw [isDigit_eq]
    exact Nat.isDigit_of_mem_toDigits (by omega) (by omega) hc
  · show i.toInt = (Nat.ofDigitChars 10 (Nat.toDigits 10 i.toInt.toNat) 0 : Nat)
    rw [Nat.ofDigitChars_ten_toDigits, Int.toNat_of_nonneg h]

/-- The quote around a string is not in it, unless both quotes are. -/
theorem quoteFor_eq {s : String} (h : ¬('"' ∈ s.toList ∧ '\'' ∈ s.toList)) :
    ∃ quote, (quote = '"' ∨ quote = '\'') ∧ quote ∉ s.toList ∧
      (Literal.quoteFor s).toList = [quote] := by
  unfold Literal.quoteFor
  by_cases hdouble : '"' ∈ s.toList
  · refine ⟨'\'', Or.inr rfl, fun hsingle => h ⟨hdouble, hsingle⟩, ?_⟩
    rw [if_pos (by simpa using hdouble)]
    rfl
  · refine ⟨'"', Or.inl rfl, hdouble, ?_⟩
    rw [if_neg (by simpa using hdouble)]
    rfl

/-- A string is spelled in a quote that does not come up in it, so one with both quotes has no
spelling. -/
theorem spells_string {s : String} (h : ¬('"' ∈ s.toList ∧ '\'' ∈ s.toList)) :
    Spells (Literal.quoteFor s ++ s ++ Literal.quoteFor s).toList [.string s] := by
  obtain ⟨quote, hquote, hmem, htext⟩ := quoteFor_eq h
  have hwritten := Written.string hquote hmem
  rw [String.ofList_toList] at hwritten
  rw [String.toList_append, String.toList_append, htext]
  exact spells_of_written hwritten

end AccessRules.Rule
