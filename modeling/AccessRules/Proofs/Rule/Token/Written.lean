import AccessRules.Proofs.Rule.Token.Characters

/-!
# How tokens are written

At each place that is no blank the scanner takes the token that is written there, as long as the
text goes on with it. The two halves are said here apart from scanning:

* `Written k text`: a token of the kind `k` is written as the text;
* `Stops k rest`: what follows such a token is no part of it, and does not spoil it.

> `read_eq_ok_iff`: a lexeme of a kind is read exactly where a token of that kind is written and
> what follows is no part of it.

With how far reading goes (`within_read`), nothing else needs to be known about `Lexeme.read` to say
what comes of a whole text. Which names can be written at all is said by `isName`: they are the texts
that are read as a name up to their end (`isName_iff`).
-/

namespace AccessRules.Rule

open Number Text

/-- Whether all tokens of the kind are written alike. -/
def TokenKind.isFixed : TokenKind → Bool
  | .integer _ | .float _ | .string _ | .name _ | .eof => false
  | _ => true

/-- `Written k text`: a token of the kind `k` is written as the text. -/
inductive Written : TokenKind → List Char → Prop
  /-- A row of digits for the integer that it denotes. -/
  | integer {digits : List Char} (i : Int64) : digits ≠ [] → (∀ c ∈ digits, isDigit c = true) →
      i.toInt = ofDigits digits → Written (.integer i) digits
  /-- Digits, a point and digits for the number nearest to what they denote. -/
  | float {whole fractional : List Char} : whole ≠ [] → fractional ≠ [] →
      (∀ c ∈ whole ++ fractional, isDigit c = true) →
      Written (.float (Decimal.toBinary64 false
        ⟨ofDigits (whole ++ fractional), -fractional.length⟩)) (whole ++ '.' :: fractional)
  /-- The characters of a string between two equal quotes, which are not among them. -/
  | string {quote : Char} {body : List Char} : quote = '"' ∨ quote = '\'' → quote ∉ body →
      Written (.string (String.ofList body)) (quote :: body ++ [quote])
  /-- The characters of a name. -/
  | name {text : String} : isName text = true → Written (.name text) text.toList
  /-- A reserved word or a sign. -/
  | fixed {k : TokenKind} : k.isFixed = true → Written k k.text.toList

/-- `Stops k rest`: what follows a token of the kind is no part of it. A name and a word end before
what could go on with a name, and no macro sign may stand right behind them. -/
def Stops (k : TokenKind) (rest : List Char) : Prop :=
  match k with
  | .integer _ => (∀ c ∈ rest.head?, isDigit c = false) ∧
      (rest.head? = some '.' → ∀ c ∈ rest.tail.head?, isDigit c = false)
  | .float _ => ∀ c ∈ rest.head?, isDigit c = false
  | .name _ | .boolean _ | .null | .connective _ | .not | .comparison .member => EndsWord rest
  | .comparison .lt | .comparison .gt => rest.head? ≠ some '='
  | _ => True

/-- Every token stops before a character that no token goes on with. -/
theorem stops_of_boundary (k : TokenKind) {rest : List Char}
    (h : ∀ c ∈ rest.head?, isBoundary c = true) : Stops k rest := by
  have hparts : ∀ c ∈ rest.head?, isDigit c = false ∧ continuesName c = false ∧ c ≠ '@' ∧ c ≠ '=' := by
    intro c hc
    simpa [isBoundary, and_assoc] using h c hc
  have hword : EndsWord rest := fun c hc => ⟨(hparts c hc).2.1, (hparts c hc).2.2.1⟩
  cases k with
  | integer i =>
    refine ⟨fun c hc => (hparts c hc).1, ?_⟩
    -- A point goes on with a name, so it is no boundary.
    intro hpoint
    exact absurd (hparts _ hpoint).2.1 (by decide +kernel)
  | float x => exact fun c hc => (hparts c hc).1
  | name | boolean | null | connective | not => exact hword
  | comparison op =>
    cases op with
    | member => exact hword
    | lt | gt => exact fun heq => (hparts _ heq).2.2.2 rfl
    | _ => trivial
  | _ => trivial

/-- A token stops before whatever starts as what it stopped before, unless that is a point. -/
theorem Stops.congr {k : TokenKind} {rest rest' : List Char} (h : Stops k rest)
    (hhead : rest'.head? = rest.head?) (hpoint : rest.head? ≠ some '.') : Stops k rest' := by
  cases k with
  | integer i =>
    refine ⟨?_, ?_⟩
    · rw [hhead]
      exact h.1
    · rw [hhead]
      exact fun heq => absurd heq hpoint
  | float x | name | boolean | null | connective | not =>
    unfold Stops EndsWord at *
    rwa [hhead]
  | comparison op =>
    cases op with
    | member | lt | gt =>
      unfold Stops EndsWord at *
      rwa [hhead]
    | _ => trivial
  | _ => trivial

/-! ## Numbers -/

theorem eq_cons_of_head? {c : Char} {rest : List Char} (h : rest.head? = some c) :
    ∃ tail, rest = c :: tail := by
  cases rest with
  | nil => cases h
  | cons d tail => exact ⟨tail, by rw [Option.some.inj h]⟩

/-- A row of digits starts every text, perhaps an empty one. -/
theorem exists_digits_append (cs : List Char) :
    ∃ digits rest, cs = digits ++ rest ∧ (∀ c ∈ digits, isDigit c = true) ∧
      ∀ c ∈ rest.head?, isDigit c = false := by
  refine ⟨cs.takeWhile isDigit, cs.dropWhile isDigit, List.takeWhile_append_dropWhile.symm, ?_, ?_⟩
  · exact List.all_eq_true.mp List.all_takeWhile
  · intro c hc
    have hnot := List.head?_dropWhile_not isDigit cs
    rw [hc] at hnot
    exact hnot

/-- A row of digits without a point behind it is a whole number. -/
theorem number_of_spanDigits {c : Char} {cs more rest : List Char}
    (h : spanDigits cs = (more, rest)) (hpoint : rest.head? ≠ some '.') :
    Lexeme.number c cs =
      if ofDigits (c :: more) < Nat.pow 2 63 then
        .ok (.integer (Int64.ofNat (ofDigits (c :: more))), more.length)
      else .error (0, .integerOutOfRange (String.ofList (c :: more))) := by
  unfold Lexeme.number
  rw [h]
  -- A fraction is looked for only behind a point.
  cases rest with
  | nil => rfl
  | cons d rest =>
    have hd : d ≠ '.' := fun heq => hpoint (congrArg some heq)
    dsimp only
    split
    · next heq =>
      cases heq
      exact absurd rfl hd
    · rfl

/-- Digits without a fraction behind them are a whole number. -/
theorem number_whole (c : Char) {more rest : List Char} (hmore : ∀ d ∈ more, isDigit d = true)
    (hrest : ∀ d ∈ rest.head?, isDigit d = false)
    (hpoint : rest.head? = some '.' → ∀ d ∈ rest.tail.head?, isDigit d = false) :
    Lexeme.number c (more ++ rest) =
      if ofDigits (c :: more) < Nat.pow 2 63 then
        .ok (.integer (Int64.ofNat (ofDigits (c :: more))), more.length)
      else .error (0, .integerOutOfRange (String.ofList (c :: more))) := by
  have hspan := spanDigits_append hmore hrest
  by_cases hhead : rest.head? = some '.'
  · -- A point without a digit behind it is left where it is.
    obtain ⟨tail, rfl⟩ := eq_cons_of_head? hhead
    have htail : spanDigits tail = ([], tail) :=
      spanDigits_append (List.forall_mem_nil _) (hpoint rfl)
    unfold Lexeme.number
    rw [hspan]
    simp only [htail]
    rfl
  · exact number_of_spanDigits hspan hhead

/-- Digits, a point and digits are a number with a fraction. -/
theorem number_fraction (c : Char) {more fractional rest : List Char}
    (hmore : ∀ d ∈ more, isDigit d = true) (hne : fractional ≠ [])
    (hfractional : ∀ d ∈ fractional, isDigit d = true)
    (hrest : ∀ d ∈ rest.head?, isDigit d = false) :
    Lexeme.number c (more ++ '.' :: fractional ++ rest) =
      .ok (.float (Decimal.toBinary64 false
        ⟨ofDigits (c :: more ++ fractional), -fractional.length⟩),
        (more ++ '.' :: fractional).length) := by
  -- The digits are taken in two goes, up to the point and behind it.
  have hspan : spanDigits (more ++ '.' :: (fractional ++ rest)) =
      (more, '.' :: (fractional ++ rest)) :=
    spanDigits_append hmore (by intro d hd; cases hd; decide)
  have hspan' := spanDigits_append hfractional hrest
  have hlength : more.length + 1 + fractional.length = (more ++ '.' :: fractional).length := by
    simp only [List.length_append, List.length_cons]
    omega
  unfold Lexeme.number
  rw [List.append_assoc, List.cons_append, hspan]
  simp only [hspan']
  rw [if_neg (by simpa using hne), hlength]

/-- A number has a fraction where a digit follows the point behind its first digits, and is a whole
number everywhere else. -/
theorem number_cases (cs : List Char) :
    (∃ more fractional rest, cs = more ++ '.' :: fractional ++ rest ∧
      (∀ d ∈ more, isDigit d = true) ∧ fractional ≠ [] ∧ (∀ d ∈ fractional, isDigit d = true) ∧
      ∀ d ∈ rest.head?, isDigit d = false) ∨
    ∃ more rest, cs = more ++ rest ∧ (∀ d ∈ more, isDigit d = true) ∧
      (∀ d ∈ rest.head?, isDigit d = false) ∧
      (rest.head? = some '.' → ∀ d ∈ rest.tail.head?, isDigit d = false) := by
  obtain ⟨more, after, rfl, hmore, hafter⟩ := exists_digits_append cs
  -- A point alone makes no fraction; a digit has to follow it.
  by_cases hfraction : after.head? = some '.' ∧ ∃ d ∈ after.tail.head?, isDigit d = true
  · obtain ⟨hhead, d, hd, hdigit⟩ := hfraction
    obtain ⟨tail, rfl⟩ := eq_cons_of_head? hhead
    obtain ⟨fractional, last, rfl, hfractional, hlast⟩ := exists_digits_append tail
    refine .inl ⟨more, fractional, last, by simp, hmore, ?_, hfractional, hlast⟩
    rintro rfl
    rw [hlast d hd] at hdigit
    cases hdigit
  · refine .inr ⟨more, after, rfl, hmore, hafter, ?_⟩
    intro hhead d hd
    cases hdigit : isDigit d with
    | false => rfl
    | true => exact absurd ⟨hhead, d, hd, hdigit⟩ hfraction

/-- What is read as a number is written as one, as far as it goes. -/
theorem written_of_number {c : Char} {cs rest : List Char} {k : TokenKind}
    (hc : isDigit c = true) (h : Lexeme.number c (cs ++ rest) = .ok (k, cs.length)) :
    Written k (c :: cs) ∧ Stops k rest := by
  rcases number_cases (cs ++ rest) with
    ⟨more, fractional, last, hcs, hmore, hne, hfractional, hlast⟩ |
    ⟨more, after, hcs, hmore, hafter, hpoint⟩
  · rw [hcs, number_fraction c hmore hne hfractional hlast] at h
    obtain ⟨rfl, hlength⟩ := Prod.mk.inj (Except.ok.inj h)
    -- As many characters were taken as the number has, so they are the number.
    obtain ⟨rfl, rfl⟩ := List.append_inj hcs hlength.symm
    have hwritten := Written.float (List.cons_ne_nil c more) hne
      (List.forall_mem_append.mpr ⟨List.forall_mem_cons.mpr ⟨hc, hmore⟩, hfractional⟩)
    exact ⟨hwritten, hlast⟩
  · rw [hcs, number_whole c hmore hafter hpoint] at h
    split at h
    next hrange =>
      obtain ⟨rfl, hlength⟩ := Prod.mk.inj (Except.ok.inj h)
      obtain ⟨rfl, rfl⟩ := List.append_inj hcs hlength.symm
      have hvalue := Int64.toInt_ofNat_of_lt hrange
      exact ⟨.integer _ (List.cons_ne_nil _ _) (List.forall_mem_cons.mpr ⟨hc, hmore⟩) hvalue,
        hafter, hpoint⟩
    next => cases h

/-! ## Strings -/

/-- A string goes on to the next quote like the one that it starts with. -/
theorem string_quoted {quote : Char} {body : List Char} (hbody : quote ∉ body)
    (rest : List Char) :
    Lexeme.string quote (body ++ [quote] ++ rest) =
      .ok (.string (String.ofList body), (body ++ [quote]).length) := by
  have htake : (body ++ [quote] ++ rest).takeWhile (· ≠ quote) = body := by
    rw [List.append_assoc]
    refine takeWhile_append_of_head? ?_ ?_
    · intro c hc
      have hne : c ≠ quote := fun heq => hbody (heq ▸ hc)
      simpa using hne
    · intro c hc
      cases hc
      simp
  unfold Lexeme.string
  simp only [htake]
  rw [if_pos (by simp), List.length_append, List.length_singleton]

/-- What is read from a quote on is a string in these quotes, and nothing behind it belongs to it.
-/
theorem written_of_string {quote : Char} {cs rest : List Char} {k : TokenKind}
    (hquote : quote = '"' ∨ quote = '\'')
    (h : Lexeme.string quote (cs ++ rest) = .ok (k, cs.length)) :
    Written k (quote :: cs) ∧ Stops k rest := by
  unfold Lexeme.string at h
  dsimp only at h
  split at h
  next hclosed =>
    obtain ⟨rfl, hlength⟩ := Prod.mk.inj (Except.ok.inj h)
    -- The body ends before a character, which is the quote.
    have hsplit := List.takeWhile_append_dropWhile (p := (· ≠ quote)) (l := cs ++ rest)
    have hnot := List.head?_dropWhile_not (· ≠ quote) (cs ++ rest)
    cases hafter : (cs ++ rest).dropWhile (· ≠ quote) with
    | nil =>
      rw [hafter, List.append_nil] at hsplit
      rw [hsplit] at hclosed
      exact absurd hclosed (Nat.lt_irrefl _)
    | cons d after =>
      rw [hafter] at hsplit hnot
      have hd : d = quote := by simpa using hnot
      subst hd
      rw [← List.singleton_append, ← List.append_assoc] at hsplit
      obtain ⟨hcs, -⟩ := List.append_inj hsplit (by simpa using hlength)
      have hbody : d ∉ (cs ++ rest).takeWhile (· ≠ d) := by
        intro hmem
        have hne := List.all_eq_true.mp List.all_takeWhile d hmem
        simp at hne
      have hwritten := Written.string hquote hbody
      rw [List.cons_append, hcs] at hwritten
      exact ⟨hwritten, trivial⟩
  next => cases h

/-! ## Words -/

/-- A reserved word has the form of a word, and is how its token is written. -/
theorem reserved_of_ofWord? {word : String} {k : TokenKind} (h : TokenKind.ofWord? word = some k) :
    k.isFixed = true ∧ k.text = word ∧ isWord word = true ∧
      ∀ rest, Stops k rest ↔ EndsWord rest := by
  unfold TokenKind.ofWord? at h
  split at h
  case h_8 => cases h
  all_goals
    cases h
    exact ⟨rfl, rfl, by decide +kernel, fun _ => .rfl⟩

/-- A reserved word is read up to its end. -/
theorem read_of_ofWord? {word : String} {k : TokenKind} {rest : List Char}
    (h : TokenKind.ofWord? word = some k) (hrest : EndsWord rest) :
    ∃ c cs, word.toList = c :: cs ∧ Lexeme.read c (cs ++ rest) = .ok (k, cs.length) := by
  obtain ⟨-, -, hword, -⟩ := reserved_of_ofWord? h
  obtain ⟨c, cs, htext, hread⟩ := read_of_isWord hword
  have hwhole := hread rest hrest
  rw [h, Option.getD_some] at hwhole
  exact ⟨c, cs, htext, hwhole⟩

/-- What is read from the first character of a name on is a name, with or without the macro sign, or
a reserved word, and it stops where no character can go on with it. -/
theorem written_of_name {c : Char} {cs rest : List Char} {k : TokenKind}
    (hc : startsName c = true) (h : Lexeme.name c (cs ++ rest) = .ok (k, cs.length)) :
    Written k (c :: cs) ∧ Stops k rest := by
  unfold Lexeme.name at h
  dsimp only at h
  split at h
  next => cases h
  next hmacro =>
    split at h
    next => cases h
    next hsign =>
      obtain ⟨hkind, hlength⟩ := Prod.mk.inj (Except.ok.inj h)
      have hsplit := List.takeWhile_append_dropWhile (p := continuesName) (l := cs ++ rest)
      obtain ⟨hcs, hrest⟩ := List.append_inj hsplit hlength
      -- The word ends where its characters do, and the macro sign was ruled out there.
      have hends : EndsWord rest := by
        intro d hd
        have hnot := List.head?_dropWhile_not continuesName (cs ++ rest)
        rw [hrest, hd] at hnot
        refine ⟨hnot, ?_⟩
        rintro rfl
        rw [hcs, List.drop_left] at hmacro
        exact hmacro hd
      have hmore : cs.all continuesName = true := by
        rw [← hcs]
        exact List.all_takeWhile
      rw [hcs] at hkind hsign
      have htext : (String.ofList (c :: cs)).toList = c :: cs := String.toList_ofList
      generalize String.ofList (c :: cs) = text at hkind hsign htext
      rw [← htext]
      cases hof : TokenKind.ofWord? text with
      | some k' =>
        rw [hof, Option.getD_some] at hkind
        subst hkind
        obtain ⟨hfixed, hspelled, -, hstops⟩ := reserved_of_ofWord? hof
        refine ⟨?_, (hstops rest).mpr hends⟩
        rw [← hspelled]
        exact .fixed hfixed
      | none =>
        rw [hof, Option.getD_none] at hkind
        subst hkind
        have hname : isName text = true := by
          simp [isName, isWord, htext, hc, hmore, hsign, hof]
        exact ⟨.name hname, hends⟩

/-! ## Signs -/

/-- A sign is read as its token, unless an equals sign behind it makes it another one. -/
theorem read_of_sign {k : TokenKind} {rest : List Char} (hk : k.isFixed = true)
    (hword : ∀ word, TokenKind.ofWord? word ≠ some k) (hrest : Stops k rest) :
    ∃ c cs, k.text.toList = c :: cs ∧ Lexeme.read c (cs ++ rest) = .ok (k, cs.length) := by
  -- The tokens that are words are excluded by hypothesis.
  cases k with
  | comparison op =>
    cases op with
    | member => exact absurd rfl (hword "in")
    | lt =>
      refine ⟨'<', [], rfl, ?_⟩
      show (if rest.head? = some '=' then _ else _) = _
      rw [if_neg hrest]
      rfl
    | gt =>
      refine ⟨'>', [], rfl, ?_⟩
      show (if rest.head? = some '=' then _ else _) = _
      rw [if_neg hrest]
      rfl
    | _ => exact ⟨_, _, rfl, rfl⟩
  | boolean b =>
    cases b with
    | true => exact absurd rfl (hword "true")
    | false => exact absurd rfl (hword "false")
  | null => exact absurd rfl (hword "null")
  | connective op =>
    cases op with
    | and => exact absurd rfl (hword "and")
    | or => exact absurd rfl (hword "or")
  | not => exact absurd rfl (hword "not")
  | leftParen | rightParen | leftBracket | rightBracket | comma => exact ⟨_, _, rfl, rfl⟩
  | _ => cases hk

/-- A sign before an equals sign is written with it. -/
theorem written_of_beforeEquals {sign : Char} {op : Comparison} {cs rest : List Char}
    {k : TokenKind} (h : Lexeme.beforeEquals sign op (cs ++ rest) = .ok (k, cs.length))
    (hfixed : (TokenKind.comparison op).text.toList = [sign, '='])
    (hstops : ∀ rest, Stops (.comparison op) rest) :
    Written k (sign :: cs) ∧ Stops k rest := by
  unfold Lexeme.beforeEquals at h
  split at h
  next hhead =>
    obtain ⟨rfl, hlength⟩ := Prod.mk.inj (Except.ok.inj h)
    obtain ⟨d, rfl⟩ := List.length_eq_one_iff.mp hlength.symm
    rw [List.singleton_append, List.head?_cons, Option.some.injEq] at hhead
    refine ⟨?_, hstops rest⟩
    rw [hhead, ← hfixed]
    exact .fixed rfl
  next => cases h

/-- A sign that means something else before an equals sign. -/
theorem written_of_perhapsEquals {sign : Char} {without followed : Comparison}
    {cs rest : List Char} {k : TokenKind}
    (h : Lexeme.perhapsEquals without followed (cs ++ rest) = .ok (k, cs.length))
    (hwithout : (TokenKind.comparison without).text.toList = [sign])
    (hfollowed : (TokenKind.comparison followed).text.toList = [sign, '='])
    (hstops : ∀ rest, rest.head? ≠ some '=' → Stops (.comparison without) rest)
    (hstops' : ∀ rest, Stops (.comparison followed) rest) :
    Written k (sign :: cs) ∧ Stops k rest := by
  unfold Lexeme.perhapsEquals at h
  -- The equals sign makes one of the two signs, and its absence the other.
  split at h
  next hhead =>
    obtain ⟨rfl, hlength⟩ := Prod.mk.inj (Except.ok.inj h)
    obtain ⟨d, rfl⟩ := List.length_eq_one_iff.mp hlength.symm
    rw [List.singleton_append, List.head?_cons, Option.some.injEq] at hhead
    refine ⟨?_, hstops' rest⟩
    rw [hhead, ← hfollowed]
    exact .fixed rfl
  next hhead =>
    obtain ⟨rfl, hlength⟩ := Prod.mk.inj (Except.ok.inj h)
    obtain rfl := List.length_eq_zero_iff.mp hlength.symm
    refine ⟨?_, hstops rest hhead⟩
    rw [← hwithout]
    exact .fixed rfl

/-- A sign that is a token by itself. -/
theorem written_of_single {sign : Char} {cs rest : List Char} {k k' : TokenKind}
    (h : (.ok (k', 0) : Lexeme) = .ok (k, cs.length)) (hfixed : k'.isFixed = true)
    (htext : k'.text.toList = [sign]) (hstops : ∀ rest, Stops k' rest) :
    Written k (sign :: cs) ∧ Stops k rest := by
  obtain ⟨rfl, hlength⟩ := Prod.mk.inj (Except.ok.inj h)
  obtain rfl := List.length_eq_zero_iff.mp hlength.symm
  refine ⟨?_, hstops rest⟩
  rw [← htext]
  exact .fixed hfixed

/-! ## Reading -/

/-- What is read where a sign starts. -/
theorem written_of_sign {c : Char} {cs rest : List Char} {k : TokenKind}
    (hc : c ∈ ['(', ')', '[', ']', ',', '=', '!', '<', '>'])
    (h : Lexeme.read c (cs ++ rest) = .ok (k, cs.length)) : Written k (c :: cs) ∧ Stops k rest := by
  simp only [List.mem_cons, List.not_mem_nil, or_false] at hc
  rcases hc with rfl | rfl | rfl | rfl | rfl | rfl | rfl | rfl | rfl
  · exact written_of_single h rfl rfl fun _ => trivial
  · exact written_of_single h rfl rfl fun _ => trivial
  · exact written_of_single h rfl rfl fun _ => trivial
  · exact written_of_single h rfl rfl fun _ => trivial
  · exact written_of_single h rfl rfl fun _ => trivial
  · change Lexeme.beforeEquals '=' .eq (cs ++ rest) = _ at h
    exact written_of_beforeEquals h rfl fun _ => trivial
  · change Lexeme.beforeEquals '!' .ne (cs ++ rest) = _ at h
    exact written_of_beforeEquals h rfl fun _ => trivial
  · change Lexeme.perhapsEquals .lt .le (cs ++ rest) = _ at h
    exact written_of_perhapsEquals h rfl rfl (fun _ hrest => hrest) fun _ => trivial
  · change Lexeme.perhapsEquals .gt .ge (cs ++ rest) = _ at h
    exact written_of_perhapsEquals h rfl rfl (fun _ hrest => hrest) fun _ => trivial

/-- **What is read as a token is written as one, and what follows is no part of it.** -/
theorem written_of_read {c : Char} {cs rest : List Char} {k : TokenKind}
    (h : Lexeme.read c (cs ++ rest) = .ok (k, cs.length)) : Written k (c :: cs) ∧ Stops k rest := by
  by_cases hsign : c ∈ ['(', ')', '[', ']', ',', '=', '!', '<', '>']
  · exact written_of_sign hsign h
  rw [Lexeme.read] at h
  by_cases hdigit : isDigit c = true
  · rw [if_pos hdigit] at h
    exact written_of_number hdigit h
  rw [if_neg hdigit] at h
  by_cases hquote : (c = '"' || c = '\'') = true
  · rw [if_pos hquote] at h
    exact written_of_string (by simpa using hquote) h
  rw [if_neg hquote] at h
  by_cases hname : startsName c = true
  · rw [if_pos hname] at h
    exact written_of_name hname h
  rw [if_neg hname] at h
  simp only [List.mem_cons, List.not_mem_nil, or_false, not_or] at hsign
  simp [hsign] at h

/-- **Where a token is written and what follows is no part of it, it is read.** -/
theorem read_of_written {k : TokenKind} {text rest : List Char} (h : Written k text)
    (hrest : Stops k rest) :
    ∃ c cs, text = c :: cs ∧ Lexeme.read c (cs ++ rest) = .ok (k, cs.length) := by
  cases h with
  | @integer digits i hne hdigits hvalue =>
    obtain ⟨c, cs, rfl⟩ := List.exists_cons_of_ne_nil hne
    obtain ⟨hc, hcs⟩ := List.forall_mem_cons.mp hdigits
    refine ⟨c, cs, rfl, ?_⟩
    -- The digits of an integer stay below the bound that the reader checks.
    have hrange : ofDigits (c :: cs) < Nat.pow 2 63 := by
      have hlt := i.toInt_lt
      rw [hvalue] at hlt
      show ofDigits (c :: cs) < 2 ^ 63
      omega
    unfold Lexeme.read
    rw [if_pos hc, number_whole c hcs hrest.1 hrest.2, if_pos hrange, ← Int64.ofInt_eq_ofNat,
      ← hvalue, Int64.ofInt_toInt]
  | @float whole fractional hwhole hfractional hdigits =>
    obtain ⟨c, more, rfl⟩ := List.exists_cons_of_ne_nil hwhole
    obtain ⟨hfirst, hlast⟩ := List.forall_mem_append.mp hdigits
    obtain ⟨hc, hmore⟩ := List.forall_mem_cons.mp hfirst
    refine ⟨c, more ++ '.' :: fractional, rfl, ?_⟩
    unfold Lexeme.read
    rw [if_pos hc, number_fraction c hmore hfractional hlast hrest]
  | @string quote body hquote hbody =>
    refine ⟨quote, body ++ [quote], rfl, ?_⟩
    have hdigit : isDigit quote = false := by
      rcases hquote with rfl | rfl <;> decide
    unfold Lexeme.read
    rw [if_neg (by simp [hdigit]), if_pos (by simpa using hquote), string_quoted hbody]
  | @name text hname =>
    obtain ⟨hword, hnone⟩ := Bool.and_eq_true_iff.mp hname
    obtain ⟨c, cs, htext, hread⟩ := read_of_isWord hword
    have hwhole := hread rest hrest
    rw [Option.isNone_iff_eq_none.mp hnone, Option.getD_none] at hwhole
    exact ⟨c, cs, htext, hwhole⟩
  | fixed hfixed =>
    -- Reserved words are read as words; signs are told by their first character.
    by_cases hword : ∃ word, TokenKind.ofWord? word = some k
    · obtain ⟨word, hof⟩ := hword
      obtain ⟨-, htext, -, hstops⟩ := reserved_of_ofWord? hof
      rw [htext]
      exact read_of_ofWord? hof ((hstops rest).mp hrest)
    · exact read_of_sign hfixed (fun word hof => hword ⟨word, hof⟩) hrest

/-- **A lexeme of a kind is read exactly where a token of the kind is written and stops.** -/
theorem read_eq_ok_iff {c : Char} {cs rest : List Char} {k : TokenKind} :
    Lexeme.read c (cs ++ rest) = .ok (k, cs.length) ↔ Written k (c :: cs) ∧ Stops k rest := by
  constructor
  · exact written_of_read
  · intro h
    obtain ⟨d, ds, htext, hread⟩ := read_of_written h.1 h.2
    cases htext
    exact hread

/-- The names that a rule can use are the texts that are read as a name up to their end. -/
theorem isName_iff {text : String} :
    isName text = true ↔ ∃ c cs, text.toList = c :: cs ∧
      Lexeme.read c cs = .ok (.name text, cs.length) := by
  constructor
  · intro h
    have hend : Stops (.name text) [] := stops_of_boundary _ nofun
    obtain ⟨c, cs, htext, hread⟩ := read_of_written (.name h) hend
    rw [List.append_nil] at hread
    exact ⟨c, cs, htext, hread⟩
  · rintro ⟨c, cs, htext, hread⟩
    have hwhole : Lexeme.read c (cs ++ []) = .ok (.name text, cs.length) := by
      rw [List.append_nil]
      exact hread
    obtain ⟨hwritten, -⟩ := read_eq_ok_iff.mp hwhole
    -- Of the tokens that are written as some text only a name has the kind of a name.
    generalize c :: cs = spelling at hwritten
    cases hwritten with
    | name hname => exact hname
    | fixed hfixed => cases hfixed

/-! ## How far reading goes -/

/-- A lexeme takes no more characters than there are, and a fault lies at one of them. -/
def Lexeme.Within (cs : List Char) : Lexeme → Prop
  | .ok (_, taken) => taken ≤ cs.length
  | .error (ahead, _) => ahead ≤ cs.length

/-- A number takes no more than is there; one that is too large is a fault at its first character.
-/
theorem within_number (c : Char) (cs : List Char) : (Lexeme.number c cs).Within cs := by
  rcases number_cases cs with
    ⟨more, fractional, rest, rfl, hmore, hne, hfractional, hrest⟩ |
    ⟨more, rest, rfl, hmore, hrest, hpoint⟩
  · rw [number_fraction c hmore hne hfractional hrest]
    exact (List.prefix_append _ rest).length_le
  · rw [number_whole c hmore hrest hpoint]
    split
    · exact (List.prefix_append more rest).length_le
    · exact Nat.zero_le _

/-- A string takes no more than is there; one without an end is a fault at its quote. -/
theorem within_string (quote : Char) (cs : List Char) : (Lexeme.string quote cs).Within cs := by
  unfold Lexeme.string
  dsimp only
  split
  next hclosed => exact hclosed
  next => exact Nat.zero_le _

theorem within_name (c : Char) (cs : List Char) : (Lexeme.name c cs).Within cs := by
  unfold Lexeme.name
  dsimp only
  split
  next hmacro =>
    -- The macro sign itself is one more character.
    obtain ⟨tail, htail⟩ := eq_cons_of_head? hmacro
    have hlength := congrArg List.length htail
    rw [List.length_drop, List.length_cons] at hlength
    show _ + 1 ≤ cs.length
    omega
  next =>
    split
    · exact Nat.zero_le _
    · exact (List.takeWhile_prefix _).length_le

/-- The sign behind a sign is one of the characters behind it. -/
theorem one_le_length {cs : List Char} (h : cs.head? = some '=') : 1 ≤ cs.length := by
  obtain ⟨tail, rfl⟩ := eq_cons_of_head? h
  exact Nat.le_add_left 1 tail.length

/-- No token takes more than is there, and no fault lies beyond the end. -/
theorem within_read (c : Char) (cs : List Char) : (Lexeme.read c cs).Within cs := by
  unfold Lexeme.read
  refine iteInduction (fun _ => within_number c cs) fun _ => ?_
  refine iteInduction (fun _ => within_string c cs) fun _ => ?_
  refine iteInduction (fun _ => within_name c cs) fun _ => ?_
  -- What is left are signs, which take one character more only if an equals sign is there.
  repeat' refine iteInduction (fun _ => ?_) fun _ => ?_
  all_goals first | exact Nat.zero_le _ | exact one_le_length ‹_›

end AccessRules.Rule
