import AccessRules.Proofs.Rule.Grammar.Places
import AccessRules.Proofs.Rule.Token.Layout

/-!
# Spacing does not change a rule

A layout is respaced by other blanks around its tokens, where blanks between two tokens may come but
not go. What follows a token then starts with a blank or as it did before, and either way the token
stops where it did (`Stops.respaced`). So a respaced text has the same tokens at other places
(`scan_of_respaces`), and since reading sees no places it is the same rule, or is refused at the same
token for the same reason (`parse_respaced`).

That the layout of a text is the only one with its tokens (`Layout.eq_of_tokens_eq`) makes this a
statement about texts: no token ends in a blank, so the blanks behind it are told from it.
-/

namespace AccessRules.Rule

open Number Text Grammar

/-! ## A text has one layout -/

/-- What a token ends with is no blank. -/
theorem Written.last {k : TokenKind} {text : List Char} (h : Written k text) :
    ∀ c ∈ text.getLast?, isBlank c = false := by
  have hall : (∀ c ∈ text, isBlank c = false) → ∀ c ∈ text.getLast?, isBlank c = false :=
    fun h c hc => h c (List.mem_of_getLast? hc)
  cases h with
  | integer i hne hdigits hvalue =>
    exact hall fun c hc => isBlank_eq_false_of_isDigit (hdigits c hc)
  | @float whole fractional hwhole hfractional hdigits =>
    refine hall ?_
    intro c hc
    rcases List.mem_append.mp hc with hc | hc
    · exact isBlank_eq_false_of_isDigit (hdigits c (List.mem_append_left _ hc))
    · rcases List.mem_cons.mp hc with rfl | hc
      · decide
      · exact isBlank_eq_false_of_isDigit (hdigits c (List.mem_append_right _ hc))
  | @string quote body hquote hbody =>
    intro c hc
    rw [List.getLast?_concat] at hc
    cases hc
    rcases hquote with rfl | rfl <;> decide
  | @name text hname =>
    obtain ⟨c, cs, htext, hstarts, hcontinues, -⟩ := cons_of_isWord (Bool.and_eq_true_iff.mp hname).1
    rw [htext] at hall ⊢
    refine hall ?_
    intro d hd
    cases hblank : isBlank d with
    | false => rfl
    | true =>
      rcases List.mem_cons.mp hd with rfl | hd
      · rw [startsName_eq_false (.inl hblank)] at hstarts
        cases hstarts
      · have hfalse := continuesName_eq_false_of_isBlank hblank
        rw [hcontinues d hd] at hfalse
        cases hfalse
  | fixed hfixed =>
    have hnone : k.text.toList.all (!isBlank ·) = true →
        ∀ c ∈ k.text.toList.getLast?, isBlank c = false := by
      intro h
      refine hall fun c hc => ?_
      simpa using List.all_eq_true.mp h c hc
    cases k with
    | boolean b => cases b <;> exact hnone (by decide)
    | comparison op => cases op <;> exact hnone (by decide)
    | connective op => cases op <;> exact hnone (by decide)
    | null | not | leftParen | rightParen | leftBracket | rightBracket | comma =>
      exact hnone (by decide)
    | _ => cases hfixed

/-- The blanks at the end of a text are told from what stands before them. -/
theorem append_blanks_inj {text text' gap gap' : List Char}
    (hlast : ∀ c ∈ text.getLast?, isBlank c = false) (hgap : ∀ c ∈ gap, isBlank c = true)
    (hlast' : ∀ c ∈ text'.getLast?, isBlank c = false) (hgap' : ∀ c ∈ gap', isBlank c = true)
    (h : text ++ gap = text' ++ gap') : text = text' ∧ gap = gap' := by
  have hblanks : ∀ {text gap : List Char}, (∀ c ∈ text.getLast?, isBlank c = false) →
      (∀ c ∈ gap, isBlank c = true) → (text ++ gap).reverse.takeWhile isBlank = gap.reverse := by
    intro text gap hlast hgap
    rw [List.reverse_append]
    refine takeWhile_append_of_head? (fun c hc => hgap c (List.mem_reverse.mp hc)) ?_
    rw [List.head?_reverse]
    exact hlast
  have hreverse : gap.reverse = gap'.reverse := by
    rw [← hblanks hlast hgap, h, hblanks hlast' hgap']
  obtain rfl := List.reverse_inj.mp hreverse
  exact ⟨List.append_cancel_right h, rfl⟩

/-- The blanks in front of some pieces; behind all of them stands `tail`. -/
def firstGap (tail : List Char) : List Piece → List Char
  | [] => tail
  | p :: _ => p.gap

/-- What stands in front of the first piece, or behind all of them, is blank. -/
theorem firstGap_blank {tail : List Char} (htail : ∀ c ∈ tail, isBlank c = true) (ps : List Piece) :
    ∀ c ∈ firstGap tail ps, isBlank c = true := by
  cases ps with
  | nil => exact htail
  | cons p ps => exact p.blank

/-- The text of some pieces starts with their first blanks. -/
theorem exists_firstGap_append (tail : List Char) (ps : List Piece) :
    ∃ more, ps.flatMap Piece.text ++ tail = firstGap tail ps ++ more := by
  cases ps with
  | nil => exact ⟨[], (List.append_nil tail).symm⟩
  | cons p ps =>
    refine ⟨p.spelling ++ (ps.flatMap Piece.text ++ tail), ?_⟩
    simp [firstGap, Piece.text]

/-- Where the same tokens follow in the same text, the blanks before them end at the same place. -/
theorem add_length_firstGap_eq {tail tail' : List Char} {ps qs : List Piece} {position position' : Nat}
    (htokens : placed position ps = placed position' qs)
    (hlength : position + (ps.flatMap Piece.text ++ tail).length =
      position' + (qs.flatMap Piece.text ++ tail').length) :
    position + (firstGap tail ps).length = position' + (firstGap tail' qs).length := by
  cases ps with
  | nil =>
    cases qs with
    | nil => exact hlength
    | cons q qs => cases htokens
  | cons p ps =>
    cases qs with
    | nil => cases htokens
    | cons q qs => exact congrArg Token.position (List.cons.inj htokens).1

/-- Pieces with the same text and the same tokens are the same. -/
theorem pieces_eq_of_placed_eq {tail tail' : List Char} (htail : ∀ c ∈ tail, isBlank c = true)
    (htail' : ∀ c ∈ tail', isBlank c = true) {ps qs : List Piece} {position : Nat}
    (htokens : placed position ps = placed position qs)
    (htext : ps.flatMap Piece.text ++ tail = qs.flatMap Piece.text ++ tail') :
    ps = qs ∧ tail = tail' := by
  induction ps generalizing qs position with
  | nil =>
    cases qs with
    | nil => exact ⟨rfl, htext⟩
    | cons q qs => cases htokens
  | cons p ps ih =>
    cases qs with
    | nil => cases htokens
    | cons q qs =>
      obtain ⟨htoken, hmore⟩ := List.cons.inj htokens
      obtain ⟨hkind, hposition⟩ := Token.mk.inj htoken
      rw [List.flatMap_cons, List.flatMap_cons, List.append_assoc, List.append_assoc] at htext
      have hlength : position + p.text.length + (ps.flatMap Piece.text ++ tail).length =
          position + q.text.length + (qs.flatMap Piece.text ++ tail').length := by
        rw [Nat.add_assoc, Nat.add_assoc, ← List.length_append, htext, List.length_append]
      have hend := add_length_firstGap_eq hmore hlength
      obtain ⟨more, hps⟩ := exists_firstGap_append tail ps
      obtain ⟨more', hqs⟩ := exists_firstGap_append tail' qs
      -- The spellings with the blanks behind them are the same, and so each by itself.
      have hboth : p.gap ++ (p.spelling ++ firstGap tail ps) ++ more =
          q.gap ++ (q.spelling ++ firstGap tail' qs) ++ more' := by
        rw [hps, hqs] at htext
        simpa [Piece.text] using htext
      have hlengths : (p.gap ++ (p.spelling ++ firstGap tail ps)).length =
          (q.gap ++ (q.spelling ++ firstGap tail' qs)).length := by
        simp only [Piece.text, List.length_append] at hend ⊢
        omega
      obtain ⟨hpq, -⟩ := List.append_inj hboth hlengths
      obtain ⟨hgap, hword⟩ := List.append_inj hpq (by omega)
      obtain ⟨hspelling, -⟩ := append_blanks_inj p.written.last (firstGap_blank htail ps)
        q.written.last (firstGap_blank htail' qs) hword
      obtain rfl : p = q := Piece.ext hgap hkind hspelling
      obtain ⟨rfl, hrest⟩ := ih hmore (List.append_cancel_left htext)
      exact ⟨rfl, hrest⟩

/-- **A text has one layout with its tokens.** -/
theorem Layout.eq_of_tokens_eq {l l' : Layout} (hsource : l.source = l'.source)
    (htokens : l.tokens = l'.tokens) : l = l' := by
  have htext : l.text = l'.text := String.ofList_injective hsource
  obtain ⟨hplaced, -⟩ := List.append_inj' htokens rfl
  obtain ⟨hpieces, htail⟩ := pieces_eq_of_placed_eq l.blank l'.blank hplaced htext
  exact Layout.ext hpieces htail

/-! ## Other blanks -/

/-- Pieces behind a token, with other blanks: where there were some, some are left. -/
inductive Respaced : List Piece → List Piece → Prop
  | nil : Respaced [] []
  | cons {p q : Piece} {ps qs : List Piece} : q.kind = p.kind → q.spelling = p.spelling →
      (q.gap = [] → p.gap = []) → Respaced ps qs → Respaced (p :: ps) (q :: qs)

/-- The same spellings of the same tokens with other blanks around them: in front and at the end any,
between two tokens some wherever there were some before. -/
inductive Layout.Respaces : Layout → Layout → Prop
  | blank {l l' : Layout} : l.pieces = [] → l'.pieces = [] → Respaces l l'
  | tokens {l l' : Layout} {p q : Piece} {ps qs : List Piece} : l.pieces = p :: ps →
      l'.pieces = q :: qs → q.kind = p.kind → q.spelling = p.spelling → Respaced ps qs →
      Respaces l l'

/-- A blank goes on with no token, so every token stops in front of one. -/
theorem isBoundary_of_isBlank {c : Char} (h : isBlank c = true) : isBoundary c = true := by
  have hdigit : isDigit c = false := by
    cases hd : isDigit c with
    | false => rfl
    | true =>
      rw [isBlank_eq_false_of_isDigit hd] at h
      cases h
  have hsigns : c ≠ '@' ∧ c ≠ '=' := by
    constructor <;> rintro rfl <;> revert h <;> decide
  simp [isBoundary, hdigit, continuesName_eq_false_of_isBlank h, hsigns]

/-- After respacing, what follows a token starts with a blank, or as it did before. -/
theorem head_of_respaced {ps qs : List Piece} (h : Respaced ps qs) (tail : List Char)
    {tail' : List Char} (htail' : ∀ c ∈ tail', isBlank c = true) :
    (∀ c ∈ (qs.flatMap Piece.text ++ tail').head?, isBlank c = true) ∨
      (qs.flatMap Piece.text ++ tail').head? = (ps.flatMap Piece.text ++ tail).head? ∧
        (ps.flatMap Piece.text ++ tail).head? ≠ some '.' := by
  cases h with
  | nil => exact .inl fun c hc => htail' c (List.mem_of_head? hc)
  | @cons p q ps qs hkind hspelling hgap hrest =>
    rw [List.flatMap_cons, List.flatMap_cons, Piece.text, Piece.text, List.append_assoc,
      List.append_assoc, List.append_assoc, List.append_assoc]
    -- Without blanks now there were none before, so the same spelling follows.
    cases hblanks : q.gap with
    | cons d gap =>
      left
      intro c hc
      cases hc
      exact q.blank d (hblanks ▸ List.mem_cons_self)
    | nil =>
      obtain ⟨d, ds, htext, -, hpoint⟩ := p.written.head
      rw [hgap hblanks, hspelling, htext]
      exact .inr ⟨rfl, by simpa using hpoint⟩

/-- A token stops where it did after respacing what follows. -/
theorem Stops.respaced {k : TokenKind} {ps qs : List Piece} (hrespaced : Respaced ps qs)
    {tail tail' : List Char} (htail' : ∀ c ∈ tail', isBlank c = true)
    (h : Stops k (ps.flatMap Piece.text ++ tail)) : Stops k (qs.flatMap Piece.text ++ tail') := by
  rcases head_of_respaced hrespaced tail htail' with hblank | ⟨hhead, hpoint⟩
  · exact stops_of_boundary k fun c hc => isBoundary_of_isBlank (hblank c hc)
  · exact h.congr hhead hpoint

/-- Tokens stop where they did after respacing. -/
theorem munched_of_respaced {ps qs : List Piece} (h : Respaced ps qs) {tail tail' : List Char}
    (htail' : ∀ c ∈ tail', isBlank c = true) (hmunched : Munched tail ps) : Munched tail' qs := by
  induction h with
  | nil => trivial
  | cons hkind hspelling hgap hrest ih =>
    obtain ⟨hstops, hmunched⟩ := hmunched
    refine ⟨?_, ih hmunched⟩
    rw [hkind]
    exact hstops.respaced hrest htail'

theorem kinds_placed (position : Nat) (ps : List Piece) :
    kinds (placed position ps) = ps.map Piece.kind := by
  induction ps generalizing position with
  | nil => rfl
  | cons p ps ih => exact congrArg (p.kind :: ·) (ih _)

theorem map_kind_of_respaced {ps qs : List Piece} (h : Respaced ps qs) :
    qs.map Piece.kind = ps.map Piece.kind := by
  induction h with
  | nil => rfl
  | cons hkind _ _ _ ih => rw [List.map_cons, List.map_cons, hkind, ih]

/-- A layout with other blanks has the same tokens at other places, and they are found there. -/
theorem scan_of_respaces {l l' : Layout} (h : l.Respaces l') (hmunched : Munched l.tail l.pieces) :
    kinds l'.tokens = kinds l.tokens ∧ Token.scan l'.source = .ok l'.tokens := by
  have hkinds : ∀ l : Layout, kinds l.tokens = l.pieces.map Piece.kind ++ [.eof] := by
    intro l
    rw [Layout.tokens, kinds, List.map_append, ← kinds, kinds_placed]
    rfl
  rw [hkinds, hkinds]
  cases h with
  | blank hnone hnone' =>
    rw [hnone, hnone']
    refine ⟨rfl, scan_source ?_⟩
    rw [hnone']
    trivial
  | tokens hpieces hpieces' hkind hspelling hrespaced =>
    rw [hpieces] at hmunched
    obtain ⟨hstops, hmore⟩ := hmunched
    refine ⟨?_, scan_source ?_⟩
    · rw [hpieces, hpieces', List.map_cons, List.map_cons, hkind, map_kind_of_respaced hrespaced]
    · rw [hpieces']
      -- The first token may have any blanks before it; the others have some wherever they had some.
      refine ⟨?_, munched_of_respaced hrespaced l'.blank hmore⟩
      rw [hkind]
      exact hstops.respaced hrespaced l'.blank

/-- The tokens of a layout end in their only end token. -/
theorem Layout.endsOnce (l : Layout) : EndsOnce l.tokens := by
  refine ⟨by simp [Layout.tokens], ?_⟩
  rw [Layout.tokens, List.dropLast_concat]
  intro t ht
  exact ((placed_ordered 0 l.pieces).2 t ht).1

/-- **Spacing does not change a rule.** A text that is scanned into tokens has one layout with these
tokens. With other blanks around the tokens, of which some stand wherever some stood between two
tokens before, the text is scanned into the same tokens at their new places. It then is the same rule,
or is refused with the same fault at the same token. -/
theorem parse_respaced {source : String} {tokens : List Token}
    (hscan : Token.scan source = .ok tokens) :
    ∃ l : Layout, (∀ other : Layout, other.source = source ∧ other.tokens = tokens ↔ other = l) ∧
      ∀ l', l.Respaces l' →
        Token.scan l'.source = .ok l'.tokens ∧ kinds l'.tokens = kinds tokens ∧
        match parse source with
        | .ok e => parse l'.source = .ok e
        | .error error => ∃ (i : Nat) (t t' : Token), tokens[i]? = some t ∧
            l'.tokens[i]? = some t' ∧ error.position = t.position ∧
            parse l'.source = .error ⟨t'.position, error.fault⟩ := by
  obtain ⟨l, rfl, rfl, hmunched⟩ := scan_eq_ok_iff.mp hscan
  refine ⟨l, ?_, ?_⟩
  · intro other
    constructor
    · rintro ⟨hsource, htokens⟩
      exact Layout.eq_of_tokens_eq hsource htokens
    · rintro rfl
      exact ⟨rfl, rfl⟩
  · intro l' hrespaces
    obtain ⟨hkinds, hscan'⟩ := scan_of_respaces hrespaces hmunched
    refine ⟨hscan', hkinds, ?_⟩
    -- Reading looks at the kinds only; the places come up in the error alone.
    have hsame := ofTokens_of_kinds l.endsOnce hkinds
    rw [parse, hscan, parse, hscan']
    exact hsame

/-- Around the sign of `x<1` there may be blanks, and so before and behind the whole of it. -/
theorem parse_respaced_comparison :
    let e : Expr := .comparison .lt (.path "x") (.literal (.int 1))
    (∃ tokens, Token.scan "x<1" = .ok tokens) ∧ parse "x<1" = .ok e ∧
      parse "\tx < \n1 " = .ok e := by
  intro e
  let pieces (gap gap' gap'' : List Char) (h : gap.all isBlank = true)
      (h' : gap'.all isBlank = true) (h'' : gap''.all isBlank = true) : List Piece :=
    [⟨gap, .name "x", ['x'], List.all_eq_true.mp h, .name (by decide)⟩,
      ⟨gap', .comparison .lt, ['<'], List.all_eq_true.mp h', .fixed rfl⟩,
      ⟨gap'', .integer 1, ['1'], List.all_eq_true.mp h'',
        .integer 1 (by decide) (List.forall_mem_singleton.mpr rfl) rfl⟩]
  let dense : Layout := ⟨pieces [] [] [] rfl rfl rfl, [], List.forall_mem_nil _⟩
  let spaced : Layout :=
    ⟨pieces ['\t'] [' '] [' ', '\n'] (by decide) (by decide) (by decide), [' '],
      List.forall_mem_singleton.mpr (by decide)⟩
  have hscan : Token.scan "x<1" = .ok dense.tokens := by with_unfolding_all rfl
  have hparse : parse "x<1" = .ok e := by with_unfolding_all rfl
  obtain ⟨l, honly, hall⟩ := parse_respaced hscan
  -- No other layout of the text has these tokens.
  obtain rfl : dense = l := (honly dense).mp ⟨rfl, rfl⟩
  have hrespaces : dense.Respaces spaced :=
    .tokens rfl rfl rfl rfl (.cons rfl rfl nofun (.cons rfl rfl nofun .nil))
  obtain ⟨-, -, hsame⟩ := hall spaced hrespaces
  rw [hparse] at hsame
  exact ⟨⟨_, hscan⟩, hparse, hsame⟩

end AccessRules.Rule
