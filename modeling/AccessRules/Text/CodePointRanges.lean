/-!
# Character classes as ranges of code points

A class of characters is a list of inclusive ranges of code points in increasing order.
`covers` searches such a list and stops at the first range that lies above the character.
-/

namespace AccessRules.Text

/-- Inclusive ranges of code points, in increasing order and apart from each other. -/
abbrev CodePointRanges := List (Nat × Nat)

namespace CodePointRanges

/-- Whether some range holds the code point. -/
def coversCode (code : Nat) : CodePointRanges → Bool
  | [] => false
  | (low, high) :: rest =>
    if code < low then false else code ≤ high || coversCode code rest

/-- Whether some range holds the character. -/
def covers (ranges : CodePointRanges) (c : Char) : Bool :=
  coversCode c.toNat ranges

/-- Ranges are ordered when each is nonempty and ends below the start of the next. -/
def Ordered : CodePointRanges → Prop
  | [] => True
  | [(low, high)] => low ≤ high
  | (low, high) :: (low', high') :: rest =>
    low ≤ high ∧ high < low' ∧ Ordered ((low', high') :: rest)

/-- No code point below the first range of an ordered list is held by a later range. -/
theorem lt_of_mem_of_ordered {low high : Nat} {rest : CodePointRanges}
    (h : Ordered ((low, high) :: rest)) {r : Nat × Nat} (hr : r ∈ rest) : high < r.1 := by
  induction rest generalizing low high with
  | nil => cases hr
  | cons next rest ih =>
    obtain ⟨low', high'⟩ := next
    obtain ⟨_, hlt, htail⟩ := h
    rcases List.mem_cons.mp hr with rfl | hr
    · exact hlt
    · have hle : low' ≤ high' := by
        cases rest with
        | nil => exact htail
        | cons _ _ => exact htail.1
      exact Nat.lt_of_lt_of_le hlt (Nat.le_of_lt (Nat.lt_of_le_of_lt hle (ih htail hr)))

/-- In an ordered list the early stop loses nothing: a code point is covered exactly when some
range holds it. -/
theorem coversCode_iff {ranges : CodePointRanges} (h : Ordered ranges) (code : Nat) :
    coversCode code ranges = true ↔ ∃ r ∈ ranges, r.1 ≤ code ∧ code ≤ r.2 := by
  induction ranges with
  | nil => simp [coversCode]
  | cons first rest ih =>
    obtain ⟨low, high⟩ := first
    have htail : Ordered rest := by
      cases rest with
      | nil => trivial
      | cons _ _ => exact h.2.2
    have hle : low ≤ high := by
      cases rest with
      | nil => exact h
      | cons _ _ => exact h.1
    simp only [coversCode]
    split
    · next hlt =>
      simp only [Bool.false_eq_true, List.mem_cons, false_iff]
      rintro ⟨r, hr | hr, hlo, _⟩
      · subst hr
        exact absurd hlo (Nat.not_le.mpr hlt)
      · have := lt_of_mem_of_ordered h hr
        omega
    · next hge =>
      simp only [Bool.or_eq_true, decide_eq_true_eq, ih htail, List.mem_cons]
      constructor
      · rintro (hhi | ⟨r, hr, hb⟩)
        · exact ⟨(low, high), Or.inl rfl, Nat.not_lt.mp hge, hhi⟩
        · exact ⟨r, Or.inr hr, hb⟩
      · rintro ⟨r, rfl | hr, hb⟩
        · exact Or.inl hb.2
        · exact Or.inr ⟨r, hr, hb⟩

end CodePointRanges

end AccessRules.Text
