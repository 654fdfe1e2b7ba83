import AccessRules.Proofs.Rule.Token.Spelling
import AccessRules.Proofs.Sql.Steps

/-!
# The tokens of a condition

The text of a condition is read again as a row of SQL tokens: words, placeholders, whole numbers,
quoted texts and signs. The names in a condition are the only part of it that comes from the rule,
and they are plain, so they cannot run into what stands next to them:

> `lex_text`: the tokens of the text of a condition are the tokens of its parts, in order.
-/

namespace AccessRules.Sql

open Rule

/-! ## Tokens -/

/-- A token of SQL. -/
inductive Token
  /-- A keyword or the name of a column. -/
  | word (text : String)
  /-- A name behind a colon, for which a value is put in. -/
  | placeholder (name : String)
  | number (n : Nat)
  /-- A text between quotes. -/
  | quoted (text : String)
  /-- A sign of comparison. -/
  | sign (op : Comparison)
  /-- The sign that puts two texts together. -/
  | concat
  | leftParen
  | rightParen
  | comma
deriving DecidableEq

/-- Whether a word may start with the character. -/
def startsWord (c : Char) : Bool :=
  c.isAlpha || c = '_'

/-- Whether a word may go on with the character. -/
def continuesWord (c : Char) : Bool :=
  c.isAlphanum || c = '_'

/-- The token that starts with the character `c`, which is no space, and the number of characters
that it takes behind it. -/
def lexeme? (c : Char) (cs : List Char) : Option (Token × Nat) :=
  if startsWord c then
    let more := cs.takeWhile continuesWord
    some (.word (String.ofList (c :: more)), more.length)
  else if c.isDigit then
    let more := cs.takeWhile Char.isDigit
    some (.number (Nat.ofDigitChars 10 (c :: more) 0), more.length)
  else if c = ':' then
    let name := cs.takeWhile continuesWord
    if name = [] then none else some (.placeholder (String.ofList name), name.length)
  else if c = '\'' then
    let body := cs.takeWhile (· ≠ '\'')
    if body.length < cs.length then some (.quoted (String.ofList body), body.length + 1) else none
  else if c = '(' then some (.leftParen, 0)
  else if c = ')' then some (.rightParen, 0)
  else if c = ',' then some (.comma, 0)
  else if c = '=' then some (.sign .eq, 0)
  else if c = '<' then
    if cs.head? = some '=' then some (.sign .le, 1)
    else if cs.head? = some '>' then some (.sign .ne, 1)
    else some (.sign .lt, 0)
  else if c = '>' then
    if cs.head? = some '=' then some (.sign .ge, 1) else some (.sign .gt, 0)
  else if c = '|' then
    if cs.head? = some '|' then some (.concat, 1) else none
  else none

/-- The tokens of the rest of a text, in which the next `taken` characters belong to the token
before. -/
def lexFrom : Nat → List Char → Option (List Token)
  | _, [] => some []
  | taken + 1, _ :: cs => lexFrom taken cs
  | 0, c :: cs =>
    if c = ' ' then lexFrom 0 cs
    else match lexeme? c cs with
      | none => none
      | some (t, more) => (lexFrom more cs).map (t :: ·)

/-- The tokens of a text. -/
def lex (text : String) : Option (List Token) :=
  lexFrom 0 text.toList

/-! ## Texts that are read apart from what follows -/

/-- What no word, number or sign of comparison can run into. -/
def Clear (rest : List Char) : Prop :=
  ∀ c ∈ rest.head?, continuesWord c = false ∧ c ≠ '=' ∧ c ≠ '>'

theorem clear_nil : Clear [] := by
  intro c hc
  cases hc

/-- No token can run into a space, a comma or a closing parenthesis. -/
theorem clear_cons {c : Char} {rest : List Char} (h : c ∈ [' ', ')', ',']) :
    Clear (c :: rest) := by
  intro d hd
  cases hd
  simp only [List.mem_cons, List.not_mem_nil, or_false] at h
  obtain rfl | rfl | rfl := h <;> decide

/-- `Spells text ts`: before anything clear, the text is read as the tokens. -/
def Spells (text : List Char) (ts : List Token) : Prop :=
  ∀ rest, Clear rest → lexFrom 0 (text ++ rest) = (lexFrom 0 rest).map (ts ++ ·)

/-- The characters that belong to the token before are passed over. -/
theorem lexFrom_length_append (cs rest : List Char) :
    lexFrom cs.length (cs ++ rest) = lexFrom 0 rest := by
  induction cs with
  | nil => rfl
  | cons c cs ih =>
    rw [List.length_cons, List.cons_append, lexFrom]
    exact ih

/-- A lexeme that takes all of a text spells its token. -/
theorem spells_of_lexeme? {c : Char} {cs : List Char} {t : Token} (hc : c ≠ ' ')
    (h : ∀ rest, Clear rest → lexeme? c (cs ++ rest) = some (t, cs.length)) :
    Spells (c :: cs) [t] := by
  intro rest hrest
  rw [List.cons_append, lexFrom, if_neg hc, h rest hrest]
  dsimp only
  rw [lexFrom_length_append]
  rfl

/-- Two texts with a space between them are read one after the other. -/
theorem Spells.space {text text' : List Char} {ts ts' : List Token} (h : Spells text ts)
    (h' : Spells text' ts') : Spells (text ++ ' ' :: text') (ts ++ ts') := by
  intro rest hrest
  rw [List.append_assoc, List.cons_append, h _ (clear_cons (by simp)), lexFrom, if_pos rfl,
    h' rest hrest, Option.map_map]
  congr 1
  funext us
  exact (List.append_assoc ts ts' us).symm

/-- Two texts with a comma and a space between them. -/
theorem Spells.comma {text text' : List Char} {ts ts' : List Token} (h : Spells text ts)
    (h' : Spells text' ts') : Spells (text ++ ',' :: ' ' :: text') (ts ++ .comma :: ts') := by
  intro rest hrest
  have hcomma : lexeme? ',' (' ' :: (text' ++ rest)) = some (.comma, 0) := rfl
  rw [List.append_assoc, List.cons_append, List.cons_append, h _ (clear_cons (by simp)), lexFrom,
    if_neg (by decide), hcomma]
  dsimp only
  rw [lexFrom, if_pos rfl, h' rest hrest, Option.map_map, Option.map_map]
  congr 1
  funext us
  simp

/-- A text in parentheses. -/
theorem Spells.parens {text : List Char} {ts : List Token} (h : Spells text ts) :
    Spells ('(' :: text ++ [')']) (.leftParen :: ts ++ [.rightParen]) := by
  intro rest hrest
  have hleft : lexeme? '(' (text ++ ')' :: rest) = some (.leftParen, 0) := rfl
  have hright : lexeme? ')' rest = some (.rightParen, 0) := rfl
  rw [List.append_assoc, List.cons_append, List.singleton_append, lexFrom, if_neg (by decide),
    hleft]
  dsimp only
  rw [h _ (clear_cons (by simp)), lexFrom, if_neg (by decide), hright]
  dsimp only
  rw [Option.map_map, Option.map_map]
  congr 1
  funext us
  simp

/-! ## Names and signs -/

/-- A plain name is a first character and others that may follow. -/
theorem exists_of_isPlainName {name : String} (h : isPlainName name = true) :
    ∃ c cs, name.toList = c :: cs ∧ startsWord c = true ∧ ∀ d ∈ cs, continuesWord d = true := by
  unfold isPlainName at h
  cases hname : name.toList with
  | nil => simp [hname] at h
  | cons c cs =>
    rw [hname] at h
    obtain ⟨hc, hcs⟩ := Bool.and_eq_true_iff.mp h
    exact ⟨c, cs, rfl, hc, List.all_eq_true.mp hcs⟩

/-- A character that starts a word can also stand inside one. -/
theorem continuesWord_of_startsWord {c : Char} (h : startsWord c = true) :
    continuesWord c = true := by
  unfold startsWord at h
  unfold continuesWord Char.isAlphanum
  rcases Bool.or_eq_true_iff.mp h with h | h
  · simp [h]
  · simp [h]

theorem spells_word {name : String} (h : isPlainName name = true) :
    Spells name.toList [.word name] := by
  obtain ⟨c, cs, hname, hc, hcs⟩ := exists_of_isPlainName h
  rw [hname]
  refine spells_of_lexeme? ?_ ?_
  · intro heq
    subst heq
    exact absurd hc (by decide)
  · intro rest hrest
    -- The characters that go on with the name end where the rest begins.
    have hmore := takeWhile_append_of_head? hcs fun d hd => (hrest d hd).1
    unfold lexeme?
    rw [if_pos hc]
    simp only [hmore, ← hname, String.ofList_toList]

/-- A name behind a colon, of any characters that a word may go on with. -/
theorem spells_placeholder {name : String} (hne : name ≠ "")
    (h : ∀ c ∈ name.toList, continuesWord c = true) :
    Spells (':' :: name.toList) [.placeholder name] := by
  refine spells_of_lexeme? (by decide) ?_
  intro rest hrest
  have hmore := takeWhile_append_of_head? h fun d hd => (hrest d hd).1
  have hlist : name.toList ≠ [] := by
    intro hnil
    exact hne (String.toList_inj.mp hnil)
  unfold lexeme?
  rw [if_neg (by decide), if_neg (by decide), if_pos rfl]
  simp only [hmore, if_neg hlist, String.ofList_toList]

/-- The token of a sign of comparison; `in` is a word. -/
def signToken : Comparison → Token
  | .member => .word "IN"
  | op => .sign op

theorem spells_sign (op : Comparison) : Spells (comparisonSign op).toList [signToken op] := by
  cases op with
  | eq => exact spells_of_lexeme? (by decide) fun _ _ => rfl
  | ne => exact spells_of_lexeme? (by decide) fun _ _ => rfl
  | le => exact spells_of_lexeme? (by decide) fun _ _ => rfl
  | ge => exact spells_of_lexeme? (by decide) fun _ _ => rfl
  | member => exact spells_word (by decide)
  | lt =>
    -- `<=` and `<>` start with it, but what is clear does not begin with their second characters.
    refine spells_of_lexeme? (by decide) ?_
    intro rest hrest
    have heq : rest.head? ≠ some '=' := fun h => (hrest _ h).2.1 rfl
    have hgt : rest.head? ≠ some '>' := fun h => (hrest _ h).2.2 rfl
    show (if rest.head? = some '=' then _ else if rest.head? = some '>' then _ else _) = _
    rw [if_neg heq, if_neg hgt]
    rfl
  | gt =>
    refine spells_of_lexeme? (by decide) ?_
    intro rest hrest
    have heq : rest.head? ≠ some '=' := fun h => (hrest _ h).2.1 rfl
    show (if rest.head? = some '=' then _ else _) = _
    rw [if_neg heq]
    rfl

/-! ## Conditions -/

/-- The tokens of the constants of a list, with commas between them. -/
def itemTokens : List Nat → List Token
  | [] => []
  | [n] => [.placeholder (Parameter.constant n).name]
  | n :: ns => .placeholder (Parameter.constant n).name :: .comma :: itemTokens ns

/-- The tokens of the pattern that a text is matched against. -/
def patternTokens (pattern : Match) (part : List Token) : List Token :=
  match pattern with
  | .anywhere => .quoted "%" :: .concat :: part ++ [.concat, .quoted "%"]
  | .atStart => part ++ [.concat, .quoted "%"]
  | .atEnd => .quoted "%" :: .concat :: part

/-- The tokens of a condition. -/
def Condition.tokens : Condition → List Token
  | .column name => [.word name]
  | .parameter p => [.placeholder p.name]
  | .not c => .word "NOT" :: .leftParen :: c.tokens ++ [.rightParen]
  | .connective op left right =>
    .leftParen :: (left.tokens ++ .word (connectiveWord op) :: right.tokens) ++ [.rightParen]
  | .comparison op left right => left.tokens ++ signToken op :: right.tokens
  | .oneOf c ns => c.tokens ++ .word "IN" :: .leftParen :: itemTokens ns ++ [.rightParen]
  | .never => [.number 1, .sign .eq, .number 0]
  | .like pattern text part => text.tokens ++ .word "LIKE" :: patternTokens pattern part.tokens

/-- What is gathered from the constants of a list, when the commas give nothing. -/
theorem flatMap_itemTokens {α : Type} {f : Token → List α} (hcomma : f .comma = []) :
    (ns : List Nat) → (itemTokens ns).flatMap f =
      ns.flatMap fun n => f (.placeholder (Parameter.constant n).name)
  | [] => rfl
  | [_] => rfl
  | n :: m :: ns => by
    have hrest := flatMap_itemTokens hcomma (m :: ns)
    rw [itemTokens, List.flatMap_cons, List.flatMap_cons, hrest, hcomma, List.nil_append]
    · rfl
    · exact List.cons_ne_nil _ _

/-- What is gathered from a pattern, when its own signs give nothing. -/
theorem flatMap_patternTokens {α : Type} {f : Token → List α} (hconcat : f .concat = [])
    (hquoted : f (.quoted "%") = []) (pattern : Match) (part : List Token) :
    (patternTokens pattern part).flatMap f = part.flatMap f := by
  cases pattern <;> simp [patternTokens, hconcat, hquoted]

/-- All characters of a plain name can stand inside a word. -/
theorem continuesWord_of_isPlainName {name : String} (h : isPlainName name = true) :
    ∀ c ∈ name.toList, continuesWord c = true := by
  obtain ⟨d, cs, hname, hd, hcs⟩ := exists_of_isPlainName h
  rw [hname]
  intro c hc
  rcases List.mem_cons.mp hc with rfl | hc
  · exact continuesWord_of_startsWord hd
  · exact hcs c hc

theorem continuesWord_append {start text : String}
    (hstart : start.toList.all continuesWord = true)
    (htext : ∀ c ∈ text.toList, continuesWord c = true) :
    ∀ c ∈ (start ++ text).toList, continuesWord c = true := by
  intro c hc
  rw [String.toList_append] at hc
  rcases List.mem_append.mp hc with hc | hc
  · exact List.all_eq_true.mp hstart c hc
  · exact htext c hc

/-- The name of a plain parameter has no character that could end it. -/
theorem Parameter.Plain.continuesWord {p : Parameter} (h : p.Plain) :
    ∀ c ∈ p.name.toList, Sql.continuesWord c = true := by
  cases p with
  | constant n =>
    refine continuesWord_append (by decide) ?_
    intro c hc
    rw [Nat.toString_eq_repr, Nat.toList_repr] at hc
    have hdigit := Nat.isDigit_of_mem_toDigits (by omega) (by omega) hc
    unfold Sql.continuesWord Char.isAlphanum
    simp [hdigit]
  | auth field => exact continuesWord_append (by decide) (continuesWord_of_isPlainName h)
  | data field => exact continuesWord_append (by decide) (continuesWord_of_isPlainName h)

theorem Parameter.name_ne_empty (p : Parameter) : p.name ≠ "" := by
  intro h
  have hlist := congrArg String.toList h
  cases p <;> simp [name] at hlist

/-- A plain parameter is read as the placeholder of its name. -/
theorem spells_parameter {p : Parameter} (h : p.Plain) :
    Spells p.text.toList [.placeholder p.name] := by
  rw [Parameter.text, String.toList_append]
  exact spells_placeholder p.name_ne_empty h.continuesWord

theorem spells_nil : Spells [] [] := by
  intro rest _
  simp

/-- The constants of a list are read as placeholders with commas between them. -/
theorem spells_items : (ns : List Nat) →
    Spells (String.intercalate ", " (ns.map fun n => (Parameter.constant n).text)).toList
      (itemTokens ns)
  | [] => spells_nil
  | [n] => by
    have hn : (Parameter.constant n).Plain := trivial
    rw [List.map_singleton, String.intercalate_singleton]
    exact spells_parameter hn
  | n :: m :: ns => by
    have hn : (Parameter.constant n).Plain := trivial
    have hrest := spells_items (m :: ns)
    rw [List.map_cons] at hrest
    rw [List.map_cons, List.map_cons, String.intercalate_cons_cons, String.toList_append,
      String.toList_append, List.append_assoc]
    exact (spells_parameter hn).comma hrest

theorem spells_percent : Spells ['\'', '%', '\''] [.quoted "%"] := by
  refine spells_of_lexeme? (by decide) ?_
  intro rest _
  have hbody : (['%', '\''] ++ rest).takeWhile (· ≠ '\'') = ['%'] := by simp
  unfold lexeme?
  rw [if_neg (by decide), if_neg (by decide), if_neg (by decide), if_pos rfl]
  simp only [hbody]
  rw [if_pos (by simp)]
  rfl

theorem spells_concat : Spells ['|', '|'] [.concat] :=
  spells_of_lexeme? (by decide) fun _ _ => rfl

/-- A pattern is read as its part with the wildcards around it. -/
theorem spells_pattern (pattern : Match) {part : String} {ts : List Token}
    (h : Spells part.toList ts) :
    Spells (patternText pattern part).toList (patternTokens pattern ts) := by
  cases pattern with
  | anywhere =>
    have hspells := spells_percent.space (spells_concat.space (h.space (spells_concat.space
      spells_percent)))
    simpa [patternText, String.toList_append, patternTokens] using hspells
  | atStart =>
    have hspells := h.space (spells_concat.space spells_percent)
    simpa [patternText, String.toList_append, patternTokens] using hspells
  | atEnd =>
    have hspells := spells_percent.space (spells_concat.space h)
    simpa [patternText, String.toList_append, patternTokens] using hspells

/-- In the condition that no row meets the sign stands between the numbers without a space. -/
theorem spells_never : Spells ['1', '=', '0'] [.number 1, .sign .eq, .number 0] := by
  intro rest hrest
  have hdigit : ∀ c ∈ rest.head?, c.isDigit = false := by
    intro c hc
    have hword := (hrest c hc).1
    unfold continuesWord Char.isAlphanum at hword
    simp only [Bool.or_eq_false_iff] at hword
    exact hword.1.2
  -- The zero is at its end, for no digit follows.
  have hnone : rest.takeWhile Char.isDigit = [] := by
    simpa using takeWhile_append_of_head? (List.forall_mem_nil _) hdigit
  have hone : lexeme? '1' ('=' :: '0' :: rest) = some (.number 1, 0) := rfl
  have heq : lexeme? '=' ('0' :: rest) = some (.sign .eq, 0) := rfl
  have hzero : lexeme? '0' rest = some (.number 0, 0) := by
    unfold lexeme?
    rw [if_neg (by decide), if_pos (by decide)]
    simp only [hnone]
    rfl
  show lexFrom 0 ('1' :: '=' :: '0' :: rest) = _
  rw [lexFrom, if_neg (by decide), hone]
  dsimp only
  rw [lexFrom, if_neg (by decide), heq]
  dsimp only
  rw [lexFrom, if_neg (by decide), hzero, Option.map_map, Option.map_map]
  rfl

/-- Every plain condition spells its tokens. -/
theorem spells_text : (c : Condition) → c.Plain → Spells c.text.toList c.tokens
  | .column name, h => spells_word h
  | .parameter p, h => spells_parameter h
  | .not c, h => by
    have hnot : Spells "NOT".toList [.word "NOT"] := spells_word (by decide)
    have hspells := hnot.space (spells_text c h).parens
    simpa [Condition.text, String.toList_append, Condition.tokens] using hspells
  | .connective op left right, h => by
    have hword : Spells (connectiveWord op).toList [.word (connectiveWord op)] := by
      cases op <;> exact spells_word (by decide)
    have hspells := ((spells_text left h.1).space (hword.space (spells_text right h.2))).parens
    simpa [Condition.text, String.toList_append, Condition.tokens] using hspells
  | .comparison op left right, h => by
    have hspells := (spells_text left h.1).space ((spells_sign op).space (spells_text right h.2))
    simpa [Condition.text, String.toList_append, Condition.tokens] using hspells
  | .oneOf c ns, h => by
    have hin : Spells "IN".toList [.word "IN"] := spells_word (by decide)
    have hspells := (spells_text c h).space (hin.space (spells_items ns).parens)
    simpa [Condition.text, String.toList_append, Condition.tokens] using hspells
  | .never, _ => by
    simpa [Condition.text, Condition.tokens] using spells_never
  | .like pattern text part, h => by
    have hlike : Spells "LIKE".toList [.word "LIKE"] := spells_word (by decide)
    have hspells := (spells_text text h.1).space
      (hlike.space (spells_pattern pattern (spells_text part h.2)))
    simpa [Condition.text, String.toList_append, Condition.tokens] using hspells

/-- **The text of a plain condition is read as the tokens of the condition.** -/
theorem lex_text {c : Condition} (h : c.Plain) : lex c.text = some c.tokens := by
  have hspells := spells_text c h [] clear_nil
  rw [List.append_nil] at hspells
  rw [lex, hspells, lexFrom, Option.map_some, List.append_nil]

end AccessRules.Sql
