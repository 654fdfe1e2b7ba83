import AccessRules.Rule.Token.Scan

/-!
# What the scanner tells characters by

Blanks, digits and the characters of names are told by their code points, and what starts a name is
neither a blank nor a digit. A word and a row of digits go on as far as their characters do:

> `read_of_isWord`: a text that has the form of a word is read as one before anything that no word goes
> on with.
> `spanDigits_append`: digits are read up to what is no digit.
-/

namespace AccessRules.Rule

open Number Text

/-! ## Character classes -/

/-- No letter stands before `A`. -/
theorem isLetter_eq_false_of_lt {c : Char} (h : c.toNat < 0x41) : isLetter c = false := by
  show CodePointRanges.coversCode c.toNat letterRanges = false
  unfold letterRanges CodePointRanges.coversCode
  rw [if_pos h]

/-- A class of characters that holds no blank in any of its ranges holds none. -/
theorem covers_eq_false_of_isBlank {ranges : CodePointRanges}
    (hranges : ∀ r ∈ blankRanges, ∀ k < r.2 + 1 - r.1, ranges.coversCode (r.1 + k) = false)
    {c : Char} (h : isBlank c = true) : ranges.covers c = false := by
  have hordered : blankRanges.Ordered := by
    repeat' constructor
  obtain ⟨r, hr, hlow, hhigh⟩ := (CodePointRanges.coversCode_iff hordered c.toNat).mp h
  have hcode := hranges r hr (c.toNat - r.1) (by omega)
  rw [Nat.add_sub_cancel' hlow] at hcode
  exact hcode

/-- No letter is a blank, whatever script it belongs to. -/
theorem isLetter_eq_false_of_isBlank {c : Char} (h : isBlank c = true) : isLetter c = false :=
  covers_eq_false_of_isBlank (by decide +kernel) h

/-- A name does not go on with a blank. -/
theorem continuesName_eq_false_of_isBlank {c : Char} (h : isBlank c = true) :
    continuesName c = false := by
  have hnumeral : isNumeral c = false := covers_eq_false_of_isBlank (by decide +kernel) h
  have hsigns : c ≠ '_' ∧ c ≠ '.' := by
    constructor <;> rintro rfl <;> revert h <;> decide
  simp [continuesName, isLetter_eq_false_of_isBlank h, hnumeral, hsigns]

/-- The characters that start a name start nothing else. -/
theorem startsName_eq_false {c : Char}
    (h : isBlank c = true ∨ isDigit c = true ∨ c = '"' ∨ c = '\'') : startsName c = false := by
  have hletter : isLetter c = false := by
    rcases h with hblank | hdigit | rfl | rfl
    · exact isLetter_eq_false_of_isBlank hblank
    · have hnine : c.toNat ≤ 0x39 := of_decide_eq_true (Bool.and_eq_true_iff.mp hdigit).2
      exact isLetter_eq_false_of_lt (by omega)
    · exact isLetter_eq_false_of_lt (by decide)
    · exact isLetter_eq_false_of_lt (by decide)
  have hsigns : c ≠ '_' ∧ c ≠ '@' := by
    constructor <;> rintro rfl <;> revert h <;> decide
  simp [startsName, hletter, hsigns]

/-- A character that starts a name starts no other token and is no blank. -/
theorem eq_false_of_startsName {c : Char} (h : startsName c = true) :
    isBlank c = false ∧ isDigit c = false ∧ c ≠ '"' ∧ c ≠ '\'' := by
  have hother : ¬(isBlank c = true ∨ isDigit c = true ∨ c = '"' ∨ c = '\'') := by
    intro hother
    rw [startsName_eq_false hother] at h
    cases h
  simpa only [not_or, Bool.not_eq_true] using hother

/-- Whether no token goes on with the character, whatever token it is. -/
def isBoundary (c : Char) : Bool :=
  !isDigit c && !continuesName c && c ≠ '@' && c ≠ '='

/-! ## Words -/

/-- The row of characters of one kind ends where something else begins. -/
theorem takeWhile_append_of_head? {p : Char → Bool} {cs rest : List Char} (hcs : ∀ c ∈ cs, p c)
    (hrest : ∀ c ∈ rest.head?, p c = false) : (cs ++ rest).takeWhile p = cs := by
  rw [List.takeWhile_append_of_pos hcs]
  cases rest with
  | nil => rw [List.takeWhile_nil, List.append_nil]
  | cons c rest => rw [List.takeWhile_cons_of_neg (by simp [hrest c rfl]), List.append_nil]

/-- Whether a text has the form of a name or a reserved word. -/
def isWord (text : String) : Bool :=
  match text.toList with
  | [] => false
  | c :: cs => startsName c && cs.all continuesName && text ≠ "@"

/-- Whether a text is a name that a rule can use. -/
def isName (text : String) : Bool :=
  isWord text && (TokenKind.ofWord? text).isNone

/-- What a word cannot run into. -/
def EndsWord (rest : List Char) : Prop :=
  ∀ c ∈ rest.head?, continuesName c = false ∧ c ≠ '@'

/-- A word starts as a name and goes on as one. -/
theorem cons_of_isWord {text : String} (h : isWord text = true) :
    ∃ c cs, text.toList = c :: cs ∧ startsName c = true ∧ (∀ d ∈ cs, continuesName d = true) ∧
      text ≠ "@" := by
  unfold isWord at h
  cases htext : text.toList with
  | nil =>
    rw [htext] at h
    cases h
  | cons c cs =>
    rw [htext] at h
    simp only [Bool.and_eq_true, decide_eq_true_eq, List.all_eq_true] at h
    exact ⟨c, cs, rfl, h.1.1, h.1.2, h.2⟩

/-- A word is read up to its end. -/
theorem read_of_isWord {text : String} (h : isWord text = true) :
    ∃ c cs, text.toList = c :: cs ∧ ∀ rest, EndsWord rest →
      Lexeme.read c (cs ++ rest) = .ok ((TokenKind.ofWord? text).getD (.name text), cs.length) := by
  obtain ⟨c, cs, htext, hc, hcs, hsign⟩ := cons_of_isWord h
  obtain ⟨-, hdigit, hdouble, hsingle⟩ := eq_false_of_startsName hc
  refine ⟨c, cs, htext, ?_⟩
  intro rest hrest
  have hmore := takeWhile_append_of_head? hcs fun d hd => (hrest d hd).1
  have hmacro : rest.head? ≠ some '@' := fun hhead => (hrest _ hhead).2 rfl
  unfold Lexeme.read
  rw [if_neg (by simp [hdigit]), if_neg (by simp [hdouble, hsingle]), if_pos hc]
  unfold Lexeme.name
  simp only [hmore, List.drop_left, ← htext, String.ofList_toList]
  rw [if_neg hmacro, if_neg hsign]

/-! ## Digits -/

theorem isDigit_eq (c : Char) : isDigit c = c.isDigit := by
  rfl

theorem isBlank_eq_false_of_isDigit {c : Char} (h : isDigit c = true) : isBlank c = false := by
  have hnone : ∀ k < 10, CodePointRanges.coversCode (0x30 + k) blankRanges = false := by decide
  simp only [isDigit, Bool.and_eq_true, decide_eq_true_eq] at h
  have hlow : 0x30 ≤ c.toNat := h.1
  have hhigh : c.toNat ≤ 0x39 := h.2
  have hcode := hnone (c.toNat - 0x30) (by omega)
  rw [Nat.add_sub_cancel' hlow] at hcode
  exact hcode

/-- The digits in front of anything else are taken off together. -/
theorem spanDigits_append {cs rest : List Char} (hcs : ∀ c ∈ cs, isDigit c = true)
    (hrest : ∀ c ∈ rest.head?, isDigit c = false) : spanDigits (cs ++ rest) = (cs, rest) := by
  have htake := takeWhile_append_of_head? hcs hrest
  have hsplit := List.takeWhile_append_dropWhile (p := isDigit) (l := cs ++ rest)
  rw [htake, List.append_cancel_left_eq] at hsplit
  rw [spanDigits, htake, hsplit]

end AccessRules.Rule
