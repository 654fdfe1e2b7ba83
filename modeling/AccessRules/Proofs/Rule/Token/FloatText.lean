import AccessRules.Proofs.Number.Shortest
import AccessRules.Proofs.Rule.Token.Layout
import AccessRules.Rule.Expr.Basic

/-!
# Numbers with a fraction in rule texts

A rule writes a number with a fraction in positional form from `0.0001` up to `10 ^ 16`, and in
scientific form everywhere else; rules themselves have no scientific form. So the text of a number is
scanned back into it exactly in that range (`scan_float_text_iff`): the positional text denotes the
shortest decimal, which is read to the number, and the scientific text has a letter in it, as the word
for an infinite number has.
-/

namespace AccessRules.Rule

open Number Text

variable {x : Binary64} {m : Magnitude}

/-! ## Positional texts -/

/-- A positional text is digits, a point and digits, which have the value that is written. -/
theorem exists_positionalText {digits : List Char} (hne : digits ≠ [])
    (hdigits : ∀ c ∈ digits, isDigit c = true) (e : Int) :
    ∃ whole fractional, NumberText.rule.positionalText digits e = whole ++ '.' :: fractional ∧
      whole ≠ [] ∧ fractional ≠ [] ∧ (∀ c ∈ whole ++ fractional, isDigit c = true) ∧
      (⟨ofDigits (whole ++ fractional), -fractional.length⟩ : Decimal).value =
        (⟨ofDigits digits, e⟩ : Decimal).value := by
  have hzeros : ∀ k : Nat, ∀ c ∈ List.replicate k '0', isDigit c = true := by
    intro k c hc
    rw [List.eq_of_mem_replicate hc]
    rfl
  have hlength : 0 < digits.length := List.length_pos_iff.mpr hne
  unfold NumberText.positionalText
  dsimp only
  split
  next h =>
    -- Zeros are put behind the digits, and one more behind the point.
    obtain ⟨k, rfl⟩ := Int.eq_ofNat_of_zero_le h
    refine ⟨digits ++ List.replicate k '0', List.replicate 1 '0', rfl, by simp [hne], by simp, ?_, ?_⟩
    · exact List.forall_mem_append.mpr ⟨List.forall_mem_append.mpr ⟨hdigits, hzeros k⟩, hzeros 1⟩
    · rw [ofDigits_append_zeros, ofDigits_append_zeros, List.length_replicate, Decimal.value,
        Decimal.value, Nat.cast_one, zpow_neg, zpow_one]
      push_cast
      rw [zpow_natCast, mul_assoc, mul_inv_cancel₀ (by norm_num), mul_one]
  next h =>
    split
    next hpoint =>
      -- The point stands between the digits.
      have hdrop : ((digits.drop (digits.length + e).toNat).length : Int) = -e := by
        rw [List.length_drop]
        omega
      refine ⟨digits.take (digits.length + e).toNat, digits.drop (digits.length + e).toNat, rfl, ?_,
        ?_, ?_, ?_⟩
      · rw [← List.length_pos_iff, List.length_take]
        omega
      · rw [← List.length_pos_iff]
        omega
      · rwa [List.take_append_drop]
      · rw [List.take_append_drop, hdrop, Int.neg_neg]
    next hpoint =>
      -- Zeros are put in front of the digits, and the point behind the first.
      have hsum : ((List.replicate (-(digits.length + e)).toNat '0' ++ digits).length : Int) =
          -e := by
        rw [List.length_append, List.length_replicate]
        omega
      refine ⟨List.replicate 1 '0', List.replicate (-(digits.length + e)).toNat '0' ++ digits, rfl,
        by simp, by simp [hne], ?_, ?_⟩
      · exact List.forall_mem_append.mpr ⟨hzeros 1, List.forall_mem_append.mpr ⟨hzeros _, hdigits⟩⟩
      · rw [hsum, Int.neg_neg, ofDigits_zeros_append, ofDigits_zeros_append]

/-! ## Which texts are read back -/

/-- What a number written in digits is read to. -/
theorem exists_of_written_float {text : List Char} (h : Written (.float x) text) :
    ∃ d : Decimal, x = d.toBinary64 false ∧ ∀ c ∈ text, isDigit c = true ∨ c = '.' := by
  -- The kind is made a variable, so that the cases are those of what can be written.
  generalize hkind : TokenKind.float x = k at h
  cases h with
  | @float whole fractional hwhole hfractional hdigits =>
    refine ⟨_, TokenKind.float.inj hkind, ?_⟩
    intro c hc
    rcases List.mem_append.mp hc with hc | hc
    · exact .inl (hdigits c (List.mem_append_left _ hc))
    · rcases List.mem_cons.mp hc with rfl | hc
      · exact .inr rfl
      · exact .inl (hdigits c (List.mem_append_right _ hc))
  | fixed hfixed =>
    subst hkind
    cases hfixed
  | _ => cases hkind

/-- A text that is scanned into one number with a fraction is that number between blanks. -/
theorem exists_written_of_scan {source : String} {p n : Nat}
    (h : Token.scan source = .ok [⟨.float x, p⟩, ⟨.eof, n⟩]) :
    ∃ gap text tail, source.toList = gap ++ text ++ tail ∧ (∀ c ∈ gap ++ tail, isBlank c = true) ∧
      Written (.float x) text := by
  obtain ⟨⟨pieces, tail, htail⟩, rfl, htokens, -⟩ := scan_eq_ok_iff.mp h
  have happend : placed 0 pieces ++ [⟨.eof, _⟩] = [⟨.float x, p⟩] ++ [⟨.eof, n⟩] := htokens
  obtain ⟨hplaced, -⟩ := List.append_inj' happend rfl
  cases pieces with
  | nil => cases hplaced
  | cons q qs =>
    obtain ⟨hfirst, hrest⟩ := List.cons.inj hplaced
    cases qs with
    | cons _ _ => cases hrest
    | nil =>
      obtain ⟨hkind, -⟩ := Token.mk.inj hfirst
      refine ⟨q.gap, q.spelling, tail, ?_, List.forall_mem_append.mpr ⟨q.blank, htail⟩, ?_⟩
      · rw [Layout.toList_source, Layout.text, List.flatMap_singleton, Piece.text]
      · rw [← hkind]
        exact q.written

/-- A number written in digits is scanned back. -/
theorem scan_of_written {text : List Char} (h : Written (.float x) text) :
    Token.scan (String.ofList text) = .ok [⟨.float x, 0⟩, ⟨.eof, text.length⟩] := by
  -- The text alone is a layout of one token, with no blanks.
  let l : Layout := ⟨[⟨[], .float x, text, List.forall_mem_nil _, h⟩], [], List.forall_mem_nil _⟩
  have htext : l.text = text := by
    simp [l, Layout.text, Piece.text]
  have hmunched : Munched l.tail l.pieces := by
    refine ⟨?_, trivial⟩
    intro c hc
    cases hc
  have hscan := scan_source hmunched
  rw [Layout.source, Layout.tokens, htext] at hscan
  exact hscan

/-- A text with a letter in it is no number with a fraction. -/
theorem not_scanned_of_letter {source : String} {p n : Nat} {c : Char} (hc : c ∈ source.toList)
    (hdigit : isDigit c = false) (hblank : isBlank c = false) (hpoint : c ≠ '.') :
    Token.scan source ≠ .ok [⟨.float x, p⟩, ⟨.eof, n⟩] := by
  intro h
  obtain ⟨gap, text, tail, hsource, hblanks, hwritten⟩ := exists_written_of_scan h
  obtain ⟨d, -, hchars⟩ := exists_of_written_float hwritten
  rw [hsource, List.mem_append, List.mem_append] at hc
  have hnot : ∀ {gap' : List Char}, gap' ⊆ gap ++ tail → c ∉ gap' := by
    intro gap' hsub hc
    rw [hblanks c (hsub hc)] at hblank
    cases hblank
  rcases hc with (hc | hc) | hc
  · exact hnot (List.subset_append_left _ _) hc
  · rcases hchars c hc with hd | hd
    · rw [hd] at hdigit
      cases hdigit
    · exact hpoint hd
  · exact hnot (List.subset_append_right _ _) hc

/-! ## The range of positional form -/

theorem text_float (m : Magnitude) :
    Literal.text (.float (.finite false m)) = String.ofList (NumberText.rule.magnitudeText m) :=
  rfl

/-- The text of a number is positional for zero and for the powers that positional form is for. -/
def Positional (m : Magnitude) : Prop :=
  m.significand = 0 ∨ NumberText.rule.positional ((m.shortest .up).size - 1) = true

/-- The printed form is positional for zero and in the middle range, and scientific outside. -/
theorem magnitudeText_eq (m : Magnitude) :
    NumberText.rule.magnitudeText m =
      if m.significand = 0 || NumberText.rule.positional ((m.shortest .up).size - 1) then
        NumberText.rule.positionalText (decimalDigits (m.shortest .up).digits) (m.shortest .up).exponent
      else
        NumberText.rule.scientificText (decimalDigits (m.shortest .up).digits)
          ((m.shortest .up).size - 1) :=
  rfl

/-- A positional text is read to the number that it was written for. -/
theorem written_of_positional (h : Positional m) :
    Written (.float (.finite false m)) (NumberText.rule.magnitudeText m) := by
  have hdigits : ∀ c ∈ decimalDigits (m.shortest .up).digits, isDigit c = true := by
    intro c hc
    rw [isDigit_eq]
    exact Nat.isDigit_of_mem_toDigits (by omega) (by omega) hc
  have hne : decimalDigits (m.shortest .up).digits ≠ [] := Nat.toDigits_ne_nil
  obtain ⟨whole, fractional, htext, hwhole, hfractional, hall, hvalue⟩ :=
    exists_positionalText hne hdigits (m.shortest .up).exponent
  rw [ofDigits_decimalDigits] at hvalue
  -- The point only moves digits, and the shortest digits read back.
  have hread := Decimal.nearest?_congr hvalue
  rw [nearest?_shortest] at hread
  have hwritten := Written.float hwhole hfractional hall
  rw [Decimal.toBinary64_eq, hread] at hwritten
  rw [magnitudeText_eq, if_pos (by simpa [Positional] using h), htext]
  exact hwritten

/-- A scientific text has the letter of its exponent in it. -/
theorem letter_mem_of_not_positional (h : ¬Positional m) :
    'e' ∈ NumberText.rule.magnitudeText m := by
  rw [magnitudeText_eq, if_neg (by simpa [Positional] using h)]
  simp [NumberText.scientificText]

/-- The text of a magnitude is scanned back exactly if it is positional. -/
theorem scan_magnitudeText_iff (m : Magnitude) :
    (∃ n, Token.scan (Literal.text (.float (.finite false m))) =
      .ok [⟨.float (.finite false m), 0⟩, ⟨.eof, n⟩]) ↔ Positional m := by
  rw [text_float]
  constructor
  · rintro ⟨n, hscan⟩
    by_cases h : Positional m
    · exact h
    · have hletter : 'e' ∈ (String.ofList (NumberText.rule.magnitudeText m)).toList := by
        rw [String.toList_ofList]
        exact letter_mem_of_not_positional h
      exact absurd hscan (not_scanned_of_letter hletter (by decide) (by decide) (by decide))
  · intro h
    exact ⟨_, scan_of_written (written_of_positional h)⟩

theorem isZero_iff (m : Magnitude) :
    (Binary64.finite false m).isZero = true ↔ m.significand = 0 := by
  have hunits : m.units = 0 ↔ m.significand = 0 := by
    simp [Magnitude.units_eq]
  rw [← hunits]
  simp [Binary64.isZero, Binary64.scaled, Binary64.signed]

/-- Positive numbers compare as their units do. -/
theorem compare?_eq_lt_iff (m t : Magnitude) :
    (Binary64.finite false m).compare? (.finite false t) = some .lt ↔ m.units < t.units := by
  show some (compare (m.units : Int) t.units) = some .lt ↔ _
  rw [Option.some.injEq, compare_lt_iff_lt, Int.ofNat_lt]

/-- Positional form is for zero and for the numbers from `0.0001` on that lie below `10 ^ 16`. -/
theorem positional_iff (m : Magnitude) :
    Positional m ↔ (Binary64.finite false m).isZero = true ∨
      (Binary64.finite false m).compare? (Decimal.toBinary64 false ⟨1, -4⟩) ≠ some .lt ∧
        (Binary64.finite false m).compare? (Decimal.toBinary64 false ⟨1, 16⟩) = some .lt := by
  -- The two bounds are numbers whose shortest decimals are the powers themselves, so sizes can be
  -- compared instead of values.
  let low : Magnitude := ⟨0x1a36e2eb1c432d, -66, by decide⟩
  let high : Magnitude := ⟨5000000000000000, 1, by decide⟩
  have hlow : (⟨1, -4⟩ : Decimal).nearest? = some low := by decide +kernel
  have hhigh : (⟨1, 16⟩ : Decimal).nearest? = some high := by decide +kernel
  have hlow' : low.shortest .up = ⟨1, -4⟩ := by decide +kernel
  have hhigh' : high.shortest .up = ⟨1, 16⟩ := by decide +kernel
  rw [isZero_iff, Decimal.toBinary64_eq, Decimal.toBinary64_eq, hlow, hhigh, Decimal.ofNearest,
    Decimal.ofNearest, Ne, compare?_eq_lt_iff, compare?_eq_lt_iff, Nat.not_lt]
  refine or_congr_right' fun hm => ?_
  rw [← le_size_shortest_iff hlow hlow' hm, ← Nat.not_le, ← le_size_shortest_iff hhigh hhigh' hm]
  simp [NumberText.rule]

/-- **The text of a number with a fraction is scanned back exactly in the range of positional form.**
If a text is scanned into one such number, the canonical text of the number is scanned into it again
if and only if the number is zero, or not below `0.0001` and below `10 ^ 16`. -/
theorem scan_float_text_iff {source : String} {p n : Nat}
    (hscan : Token.scan source = .ok [⟨.float x, p⟩, ⟨.eof, n⟩]) :
    (∃ n', Token.scan (Literal.text (.float x)) = .ok [⟨.float x, 0⟩, ⟨.eof, n'⟩]) ↔
      x.isZero = true ∨
        x.compare? (Decimal.toBinary64 false ⟨1, -4⟩) ≠ some .lt ∧
          x.compare? (Decimal.toBinary64 false ⟨1, 16⟩) = some .lt := by
  obtain ⟨gap, text, tail, -, -, hwritten⟩ := exists_written_of_scan hscan
  obtain ⟨d, rfl, -⟩ := exists_of_written_float hwritten
  rw [d.toBinary64_eq]
  cases d.nearest? with
  | some m => rw [Decimal.ofNearest, scan_magnitudeText_iff, positional_iff]
  | none =>
    -- The word for an infinite number is a name.
    have hnot : ∀ n', Token.scan (Literal.text (.float (.infinite false))) ≠
        .ok [⟨.float (.infinite false), 0⟩, ⟨.eof, n'⟩] := fun n' =>
      not_scanned_of_letter (c := 'i') (by decide) (by decide) (by decide) (by decide)
    have hlarge : (Binary64.infinite false).compare? (Decimal.toBinary64 false ⟨1, 16⟩) ≠ some .lt := by
      decide +kernel
    have hzero : (Binary64.infinite false).isZero ≠ true := by decide +kernel
    rw [Decimal.ofNearest]
    simp [hnot, hlarge, hzero]

/-- The number `1500.250` lies in the range, and its text `1500.25` is scanned into it again. -/
theorem scan_float_text_within_range :
    let x := Decimal.toBinary64 false ⟨1500250, -3⟩
    Token.scan "1500.250" = .ok [⟨.float x, 0⟩, ⟨.eof, 8⟩] ∧ Literal.text (.float x) = "1500.25" ∧
      ∃ n, Token.scan (Literal.text (.float x)) = .ok [⟨.float x, 0⟩, ⟨.eof, n⟩] := by
  intro x
  have hscan : Token.scan "1500.250" = .ok [⟨.float x, 0⟩, ⟨.eof, 8⟩] := by decide +kernel
  have hlow : x.compare? (Decimal.toBinary64 false ⟨1, -4⟩) ≠ some .lt := by decide +kernel
  have hhigh : x.compare? (Decimal.toBinary64 false ⟨1, 16⟩) = some .lt := by decide +kernel
  exact ⟨hscan, by decide +kernel, (scan_float_text_iff hscan).mpr (.inr ⟨hlow, hhigh⟩)⟩

/-- The number `10000000000000000.0` is written as `1e16`, which is an integer with a name behind it. -/
theorem scan_float_text_beyond_range :
    let x := Decimal.toBinary64 false ⟨100000000000000000, -1⟩
    Token.scan "10000000000000000.0" = .ok [⟨.float x, 0⟩, ⟨.eof, 19⟩] ∧
      Literal.text (.float x) = "1e16" ∧
      Token.scan (Literal.text (.float x)) =
        .ok [⟨.integer 1, 0⟩, ⟨.name "e16", 1⟩, ⟨.eof, 4⟩] := by
  intro x
  exact ⟨by decide +kernel, by decide +kernel, by decide +kernel⟩

end AccessRules.Rule
