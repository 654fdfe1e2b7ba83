import AccessRules.Proofs.Rule.Token.Written

/-!
# Tokens tile the text

A `Layout` is a text cut into tokens with blanks between them. The scanner finds one for every text
that it accepts:

> `scan_eq_ok_iff`: the tokens of a text are those of a layout of it in which every token stops where
> its spelling ends.

So the tokens and the blanks between them are the whole text (`scan_tiles`), and a text that is
refused is refused at one of its characters.
-/

namespace AccessRules.Rule

open Number Text

/-! ## Where tokens start and end -/

/-- No text is written for the end token. -/
theorem Written.kind_ne_eof {k : TokenKind} {text : List Char} (h : Written k text) : k ≠ .eof := by
  rintro rfl
  cases h with
  | fixed hfixed => cases hfixed

/-- What a token starts with is no blank, and no point either. -/
theorem Written.head {k : TokenKind} {text : List Char} (h : Written k text) :
    ∃ c cs, text = c :: cs ∧ isBlank c = false ∧ c ≠ '.' := by
  have hdigit : ∀ {c : Char}, isDigit c = true → isBlank c = false ∧ c ≠ '.' := by
    intro c hc
    refine ⟨isBlank_eq_false_of_isDigit hc, ?_⟩
    rintro rfl
    cases hc
  -- Each form is asked for its first character: a digit, a quote, a letter or the sign itself.
  cases h with
  | integer i hne hdigits hvalue =>
    obtain ⟨c, cs, rfl⟩ := List.exists_cons_of_ne_nil hne
    exact ⟨c, cs, rfl, hdigit (hdigits c List.mem_cons_self)⟩
  | @float whole fractional hwhole hfractional hdigits =>
    obtain ⟨c, cs, rfl⟩ := List.exists_cons_of_ne_nil hwhole
    exact ⟨c, cs ++ '.' :: fractional, rfl, hdigit (hdigits c List.mem_cons_self)⟩
  | @string quote body hquote hbody =>
    refine ⟨quote, body ++ [quote], rfl, ?_⟩
    rcases hquote with rfl | rfl <;> decide
  | @name text hname =>
    obtain ⟨c, cs, htext, hstarts, -⟩ := cons_of_isWord (Bool.and_eq_true_iff.mp hname).1
    refine ⟨c, cs, htext, (eq_false_of_startsName hstarts).1, ?_⟩
    rintro rfl
    exact absurd hstarts (by decide +kernel)
  | fixed hfixed =>
    cases k with
    | boolean b => cases b <;> exact ⟨_, _, rfl, by decide, by decide⟩
    | comparison op => cases op <;> exact ⟨_, _, rfl, by decide, by decide⟩
    | connective op => cases op <;> exact ⟨_, _, rfl, by decide, by decide⟩
    | null | not | leftParen | rightParen | leftBracket | rightBracket | comma =>
      exact ⟨_, _, rfl, by decide, by decide⟩
    | _ => cases hfixed

/-! ## Layouts -/

/-- A token with the blanks before it. -/
@[ext] structure Piece where
  /-- The blanks before the token. -/
  gap : List Char
  kind : TokenKind
  /-- The characters of the token. -/
  spelling : List Char
  blank : ∀ c ∈ gap, isBlank c = true
  written : Written kind spelling

/-- The characters of a piece. -/
def Piece.text (p : Piece) : List Char :=
  p.gap ++ p.spelling

/-- A text cut into tokens and the blanks around them. -/
@[ext] structure Layout where
  pieces : List Piece
  /-- The blanks behind the last token. -/
  tail : List Char
  blank : ∀ c ∈ tail, isBlank c = true

/-- The characters of a layout, one after the other. -/
def Layout.text (l : Layout) : List Char :=
  l.pieces.flatMap Piece.text ++ l.tail

/-- The text that is laid out. -/
def Layout.source (l : Layout) : String :=
  String.ofList l.text

/-- The tokens of some pieces, each at the place where its spelling starts, if the first piece starts
at `position`. -/
def placed (position : Nat) : List Piece → List Token
  | [] => []
  | p :: ps => ⟨p.kind, position + p.gap.length⟩ :: placed (position + p.text.length) ps

/-- The tokens of a layout, and the end token behind the last character. -/
def Layout.tokens (l : Layout) : List Token :=
  placed 0 l.pieces ++ [⟨.eof, l.text.length⟩]

/-- Each token stops where its spelling ends, with `rest` behind the last one. -/
def Munched (rest : List Char) : List Piece → Prop
  | [] => True
  | p :: ps => Stops p.kind (ps.flatMap Piece.text ++ rest) ∧ Munched rest ps

theorem Layout.toList_source (l : Layout) : l.source.toList = l.text :=
  String.toList_ofList

theorem Layout.length_source (l : Layout) : l.source.length = l.text.length := by
  rw [← String.length_toList, l.toList_source]

/-- A token takes at least one character. -/
theorem Piece.length_pos (p : Piece) : 0 < p.spelling.length := by
  obtain ⟨c, cs, htext, -⟩ := p.written.head
  rw [htext]
  exact Nat.zero_lt_succ _

/-! ## Scanning a layout -/

/-- The characters of the token found last are passed over. -/
theorem scanFrom_length_append (position : Nat) (found : List Token) (cs rest : List Char) :
    Token.scanFrom position cs.length found (cs ++ rest) =
      Token.scanFrom (position + cs.length) 0 found rest := by
  induction cs generalizing position with
  | nil => rfl
  | cons c cs ih =>
    rw [List.length_cons, List.cons_append, Token.scanFrom, ih]
    congr 1
    omega

/-- Blanks are passed over. -/
theorem scanFrom_blanks (position : Nat) (found : List Token) {gap : List Char}
    (hgap : ∀ c ∈ gap, isBlank c = true) (rest : List Char) :
    Token.scanFrom position 0 found (gap ++ rest) =
      Token.scanFrom (position + gap.length) 0 found rest := by
  induction gap generalizing position with
  | nil => rfl
  | cons c gap ih =>
    obtain ⟨hc, hgap⟩ := List.forall_mem_cons.mp hgap
    rw [List.cons_append, Token.scanFrom, if_pos hc, ih _ hgap, List.length_cons]
    congr 1
    omega

/-- A token that stops where its spelling ends is found there. -/
theorem scanFrom_written (position : Nat) (found : List Token) {k : TokenKind}
    {spelling rest : List Char} (h : Written k spelling) (hrest : Stops k rest) :
    Token.scanFrom position 0 found (spelling ++ rest) =
      Token.scanFrom (position + spelling.length) 0 (⟨k, position⟩ :: found) rest := by
  obtain ⟨c, cs, htext, hread⟩ := read_of_written h hrest
  obtain ⟨d, ds, htext', hblank, -⟩ := h.head
  obtain ⟨rfl, rfl⟩ := List.cons.inj (htext.symm.trans htext')
  rw [htext, List.cons_append, Token.scanFrom, if_neg (by simp [hblank]), hread]
  -- The token is found at its first character; the others are still to be passed over.
  show Token.scanFrom _ cs.length _ _ = _
  rw [scanFrom_length_append, List.length_cons]
  congr 1
  omega

/-- The pieces at the start of a text are found one after the other. -/
theorem scanFrom_pieces (position : Nat) (found : List Token) {ps : List Piece} {rest : List Char}
    (h : Munched rest ps) :
    Token.scanFrom position 0 found (ps.flatMap Piece.text ++ rest) =
      Token.scanFrom (position + (ps.flatMap Piece.text).length) 0
        ((placed position ps).reverse ++ found) rest := by
  -- The tokens found so far are carried along in reverse, as the scanner keeps them.
  induction ps generalizing position found with
  | nil => rfl
  | cons p ps ih =>
    obtain ⟨hstops, hmunched⟩ := h
    have htext : (p :: ps).flatMap Piece.text ++ rest =
        p.gap ++ (p.spelling ++ (ps.flatMap Piece.text ++ rest)) := by
      simp [Piece.text]
    have hplace : position + p.gap.length + p.spelling.length = position + p.text.length := by
      rw [Piece.text, List.length_append, Nat.add_assoc]
    rw [htext, scanFrom_blanks _ _ p.blank, scanFrom_written _ _ p.written hstops, hplace,
      ih _ _ hmunched, placed, List.reverse_cons, List.append_assoc, List.flatMap_cons,
      List.length_append, Nat.add_assoc]
    rfl

/-- The tokens of a layout are found if each stops where its spelling ends. -/
theorem scan_source {l : Layout} (h : Munched l.tail l.pieces) :
    Token.scan l.source = .ok l.tokens := by
  have hblanks := scanFrom_blanks (0 + (l.pieces.flatMap Piece.text).length)
    ((placed 0 l.pieces).reverse ++ []) l.blank []
  rw [List.append_nil l.tail] at hblanks
  rw [Token.scan, l.toList_source, Layout.text, scanFrom_pieces 0 [] h, hblanks, Token.scanFrom,
    Layout.tokens, Layout.text, List.length_append, List.append_nil, List.reverse_cons,
    List.reverse_reverse, Nat.zero_add]

/-! ## Every text has a layout, up to a fault -/

/-- Pieces can be cut off the front of a text until only blanks are left, or what follows the blanks
is no token. -/
theorem exists_pieces (text : List Char) :
    ∃ ps gap rest, text = ps.flatMap Piece.text ++ (gap ++ rest) ∧
      (∀ c ∈ gap, isBlank c = true) ∧ Munched (gap ++ rest) ps ∧
      (rest = [] ∨ ∃ c cs ahead fault, rest = c :: cs ∧ isBlank c = false ∧
        Lexeme.read c cs = .error (ahead, fault)) := by
  have hsplit := List.takeWhile_append_dropWhile (p := isBlank) (l := text)
  have hgap : ∀ c ∈ text.takeWhile isBlank, isBlank c = true :=
    List.all_eq_true.mp List.all_takeWhile
  have hnot := List.head?_dropWhile_not isBlank text
  cases hrest : text.dropWhile isBlank with
  | nil =>
    rw [hrest] at hsplit
    exact ⟨[], _, [], hsplit.symm, hgap, trivial, .inl rfl⟩
  | cons c cs =>
    rw [hrest] at hsplit hnot
    have hc : isBlank c = false := hnot
    cases hread : Lexeme.read c cs with
    | error fault =>
      refine ⟨[], _, c :: cs, hsplit.symm, hgap, trivial, .inr ⟨c, cs, _, _, rfl, hc, hread⟩⟩
    | ok lexeme =>
      obtain ⟨k, taken⟩ := lexeme
      -- The token takes characters off the front, and the rest of the text is shorter.
      have hwithin := within_read c cs
      rw [hread] at hwithin
      have hlength : (cs.take taken).length = taken := List.length_take_of_le hwithin
      have hcut : cs.take taken ++ cs.drop taken = cs := List.take_append_drop taken cs
      obtain ⟨hwritten, hstops⟩ : Written k (c :: cs.take taken) ∧ Stops k (cs.drop taken) := by
        refine read_eq_ok_iff.mp ?_
        rw [hcut, hlength, hread]
      obtain ⟨ps, gap, rest, hdrop, hblank, hmunched, hend⟩ := exists_pieces (cs.drop taken)
      refine ⟨⟨text.takeWhile isBlank, k, c :: cs.take taken, hgap, hwritten⟩ :: ps, gap, rest, ?_,
        hblank, ⟨?_, hmunched⟩, hend⟩
      · rw [List.flatMap_cons, Piece.text, List.append_assoc, List.append_assoc, ← hdrop,
          List.cons_append, hcut, hsplit]
      · rw [← hdrop]
        exact hstops
termination_by text.length
decreasing_by
  have hlength := congrArg List.length hsplit
  rw [List.length_append, hrest, List.length_cons] at hlength
  rw [List.length_drop]
  omega

/-- What comes of a text is decided where no more pieces can be cut off. -/
theorem scan_cases (source : String) :
    (∃ l : Layout, l.source = source ∧ Munched l.tail l.pieces) ∨
      ∃ error, Token.scan source = .error error ∧ error.position < source.length := by
  obtain ⟨ps, gap, rest, htext, hgap, hmunched, rfl | ⟨c, cs, ahead, fault, rfl, hc, hread⟩⟩ :=
    exists_pieces source.toList
  · rw [List.append_nil] at htext hmunched
    refine .inl ⟨⟨ps, gap, hgap⟩, ?_, hmunched⟩
    rw [Layout.source, Layout.text, ← htext, String.ofList_toList]
  · right
    -- The fault lies at most at the end of what is left.
    have hwithin := within_read c cs
    rw [hread] at hwithin
    have hscan : Token.scan source =
        .error ⟨(ps.flatMap Piece.text).length + gap.length + ahead, fault⟩ := by
      rw [Token.scan, htext, scanFrom_pieces 0 [] hmunched, scanFrom_blanks _ _ hgap,
        Token.scanFrom, if_neg (by simp [hc]), hread, Nat.zero_add]
    refine ⟨_, hscan, ?_⟩
    have hahead : ahead ≤ cs.length := hwithin
    rw [← String.length_toList, htext, List.length_append, List.length_append, List.length_cons]
    show _ + gap.length + ahead < _
    omega

/-- **The tokens of a text are those of a layout of it in which every token stops where its spelling
ends.** -/
theorem scan_eq_ok_iff {source : String} {tokens : List Token} :
    Token.scan source = .ok tokens ↔
      ∃ l : Layout, l.source = source ∧ l.tokens = tokens ∧ Munched l.tail l.pieces := by
  constructor
  · intro h
    obtain ⟨l, rfl, hmunched⟩ | ⟨error, herror, -⟩ := scan_cases source
    · rw [scan_source hmunched] at h
      exact ⟨l, rfl, Except.ok.inj h, hmunched⟩
    · rw [herror] at h
      cases h
  · rintro ⟨l, rfl, rfl, hmunched⟩
    exact scan_source hmunched

/-! ## The places of tokens -/

/-- The tokens of some pieces stand in order within the pieces, and none of them is the end. -/
theorem placed_ordered (position : Nat) (ps : List Piece) :
    (placed position ps).Pairwise (·.position < ·.position) ∧
      ∀ t ∈ placed position ps, t.kind ≠ .eof ∧ position ≤ t.position ∧
        t.position < position + (ps.flatMap Piece.text).length := by
  induction ps generalizing position with
  | nil => exact ⟨.nil, List.forall_mem_nil _⟩
  | cons p ps ih =>
    obtain ⟨hpairwise, hall⟩ := ih (position + p.text.length)
    -- No spelling is empty, so every next token stands farther on.
    have hpos := p.length_pos
    have hlength : p.text.length = p.gap.length + p.spelling.length := List.length_append
    have hlengths : ((p :: ps).flatMap Piece.text).length =
        p.text.length + (ps.flatMap Piece.text).length := by
      rw [List.flatMap_cons, List.length_append]
    refine ⟨.cons ?_ hpairwise, List.forall_mem_cons.mpr ⟨?_, ?_⟩⟩
    · intro t ht
      have hfrom := (hall t ht).2.1
      show position + p.gap.length < t.position
      omega
    · refine ⟨p.written.kind_ne_eof, Nat.le_add_right _ _, ?_⟩
      show position + p.gap.length < _
      omega
    · intro t ht
      obtain ⟨hkind, hfrom, hto⟩ := hall t ht
      exact ⟨hkind, by omega, by omega⟩

/-- **Tokens tile the text.** The tokens of a text that is accepted are those of a layout of it: each
stands where its spelling starts, and between the end of a spelling and the next token, or the end,
there are only blanks. The end token is the last one, stands behind the last character, and is the
only one of its kind; the places of the tokens increase. A text that is refused is refused at one of
its characters. -/
theorem scan_tiles (source : String) :
    match Token.scan source with
    | .ok tokens =>
      (∃ l : Layout, l.source = source ∧ l.tokens = tokens) ∧
      (∃ before, tokens = before ++ [⟨.eof, source.length⟩] ∧ ∀ t ∈ before, t.kind ≠ .eof) ∧
      tokens.Pairwise (·.position < ·.position)
    | .error error => error.position < source.length := by
  obtain ⟨l, rfl, hmunched⟩ | ⟨error, herror, hposition⟩ := scan_cases source
  · rw [scan_source hmunched]
    obtain ⟨hpairwise, hall⟩ := placed_ordered 0 l.pieces
    refine ⟨⟨l, rfl, rfl⟩, ⟨placed 0 l.pieces, ?_, fun t ht => (hall t ht).1⟩, ?_⟩
    · rw [l.length_source]
      rfl
    · -- All other tokens stand before the blanks at the end.
      refine List.pairwise_append.mpr ⟨hpairwise, List.pairwise_singleton _ _, ?_⟩
      intro t ht u hu
      obtain rfl := List.mem_singleton.mp hu
      have hto := (hall t ht).2.2
      show t.position < l.text.length
      rw [Layout.text, List.length_append]
      omega
  · rw [herror]
    exact hposition

end AccessRules.Rule
