import AccessRules.Proofs.Number.Rounding

/-!
# Whole numbers among the binary ones

A whole number is compared with a floating-point one by the number that it is rounded to. Beyond
`2 ^ 53` whole numbers lie closer together than the numbers of the format, so that some of them stand
for no number of it and several are rounded to one. What is left of their order is this:

> `place_mono`: rounding never changes the order of two whole numbers, it can only make them equal.
> `denotes_ofInt`: a whole number that the format has is rounded to itself, and
> `denotes_of_natAbs_le`: up to `2 ^ 53` the format has them all.
-/

namespace AccessRules.Number

open Magnitude

namespace Binary64

/-! ## The place of a rounded whole number -/

/-- The place on the line of the number that a whole number is rounded to, in units. -/
def place (i : Int) : Int :=
  signed (i < 0) (Magnitude.place (ofFraction? i.natAbs 1))

/-- A whole number converted to a floating-point one lies at its place. -/
theorem scaled_ofInt (i : Int) : (ofInt i).scaled = some (place i) := by
  unfold ofInt ofFraction place
  cases ofFraction? i.natAbs 1 with
  | none =>
    rw [scaled, Magnitude.place]
    generalize 2098 = k
    rfl
  | some x => rfl

/-- **Rounding never changes the order of whole numbers.** -/
theorem place_mono {i j : Int} (h : i ≤ j) : place i ≤ place j := by
  -- Of two numbers on one side of zero, the one that is farther away is rounded no nearer.
  have hmono : ∀ {m n : Nat}, m ≤ n →
      Magnitude.place (ofFraction? m 1) ≤ Magnitude.place (ofFraction? n 1) :=
    fun hle => place_ofFraction?_mono Nat.one_pos Nat.one_pos (Nat.mul_le_mul_right 1 hle)
  unfold place signed
  by_cases hi : i < 0
  · by_cases hj : j < 0
    · have hle := hmono (m := j.natAbs) (n := i.natAbs) (by omega)
      simp only [hi, hj, decide_true, if_true]
      omega
    · simp [hi, hj]
  · have hj : ¬ j < 0 := by omega
    have hle := hmono (m := i.natAbs) (n := j.natAbs) (by omega)
    simp only [hi, hj, decide_false]
    simpa using hle

/-! ## Whole numbers that the format has -/

/-- The number is finite and stands for the whole number. -/
def Denotes (x : Binary64) (i : Int) : Prop :=
  x.isFinite = true ∧ x.scaled = some (i * oneInUnits)

/-- A multiple of a whole number has its sign and the multiple of its size. -/
theorem signed_natAbs_mul (i : Int) (n : Nat) : signed (i < 0) (i.natAbs * n) = i * n := by
  unfold signed
  by_cases hi : i < 0
  · have habs : (i.natAbs : Int) = -i := by omega
    simp [hi, habs]
  · have habs : (i.natAbs : Int) = i := by omega
    simp [hi, habs]

/-- A whole number that is rounded to a magnitude of its own size is rounded to itself. -/
theorem denotes_of_ofFraction? {i : Int} {x : Magnitude}
    (h : ofFraction? i.natAbs 1 = some x) (hx : x.units = i.natAbs * oneInUnits) :
    (ofInt i).Denotes i := by
  have hplace : place i = i * oneInUnits := by
    rw [place, h, Magnitude.place, hx, signed_natAbs_mul]
  refine ⟨?_, ?_⟩
  · rw [ofInt, ofFraction, h]
    rfl
  · rw [scaled_ofInt, hplace]

theorem natAbs_signed (negative : Bool) (n : Nat) : (signed negative n).natAbs = n := by
  cases negative <;> simp [signed]

/-- The infinities lie where the first number too large to be finite would. -/
theorem infinite_scaled (negative : Bool) :
    (infinite negative).scaled = some (signed negative (2 ^ 1024 * oneInUnits)) := by
  -- The exponents are made variables, or the powers would be computed.
  have hk : 2098 = 1024 + 1074 := rfl
  rw [scaled, oneInUnits]
  generalize 2098 = k, 1024 = m, 1074 = n at hk ⊢
  subst hk
  exact congrArg (some ∘ signed negative) (pow_add 2 m n)

/-- No whole number below `2 ^ 1024` lies where the infinities do. -/
theorem denotes_of_scaled {x : Binary64} {i : Int} (hi : i.natAbs < 2 ^ 1024)
    (h : x.scaled = some (i * oneInUnits)) : x.Denotes i := by
  refine ⟨?_, h⟩
  cases x with
  | nan => cases h
  | finite negative m => rfl
  | infinite negative =>
    rw [infinite_scaled] at h
    have habs := congrArg Int.natAbs (Option.some.inj h)
    rw [natAbs_signed, Int.natAbs_mul, Int.natAbs_natCast] at habs
    exact absurd (Nat.eq_of_mul_eq_mul_right oneInUnits_pos habs) (Nat.ne_of_gt hi)

/-- **A whole number that the format has is rounded to itself.** -/
theorem denotes_ofInt {x : Binary64} {i : Int} (h : x.Denotes i) : (ofInt i).Denotes i := by
  obtain ⟨hfinite, hscaled⟩ := h
  cases x with
  | nan => cases hfinite
  | infinite negative => cases hfinite
  | finite negative m =>
    have hunits : m.units = i.natAbs * oneInUnits := by
      have hplace : signed negative m.units = i * oneInUnits := Option.some.inj hscaled
      have habs := congrArg Int.natAbs hplace
      rw [natAbs_signed, Int.natAbs_mul, Int.natAbs_natCast] at habs
      exact habs
    refine denotes_of_ofFraction? (ofFraction?_of_units m Nat.one_pos ?_) hunits
    rw [hunits, Nat.mul_one]

theorem mul_oneInUnits_le {n : Nat} (h : n ≤ 2 ^ 53) : n * oneInUnits ≤ 2 ^ (53 + 1074) := by
  calc n * oneInUnits ≤ 2 ^ 53 * oneInUnits := Nat.mul_le_mul_right _ h
    _ = 2 ^ (53 + 1074) := by rw [pow_add, oneInUnits]

/-- A whole number up to `2 ^ 53` is a multiple of the grid that it is rounded on. -/
theorem place_of_le {n : Nat} (h : n ≤ 2 ^ 53) :
    Magnitude.place (ofFraction? n 1) = n * oneInUnits := by
  obtain ⟨k, hbinade, hplace⟩ := exists_place_ofFraction? Nat.one_pos n
  have hn := mul_oneInUnits_le h
  have hdvd : 2 ^ k ∣ n * oneInUnits := by
    by_cases hk : k ≤ 1074
    · exact Dvd.dvd.mul_left (pow_dvd_pow 2 hk) n
    · -- Only `2 ^ 53` itself lies on the next grid.
      have habove := hbinade.above.resolve_left (by omega)
      rw [Nat.mul_one] at habove
      have hle : 52 + k ≤ 53 + 1074 := (pow_le_pow_iff_right₀ (by decide)).mp (habove.trans hn)
      have hk : 52 + k = 53 + 1074 := by omega
      rw [Nat.le_antisymm hn (hk ▸ habove)]
      exact pow_dvd_pow 2 (by omega)
  obtain ⟨s, hs⟩ := hdvd
  have hrounded : rounded k (n * oneInUnits) 1 = n * oneInUnits := by
    have hexact := rounded_mul (k := k) Nat.one_pos s
    rw [Nat.mul_one, Nat.mul_comm s, ← hs] at hexact
    exact hexact
  rw [hplace, hrounded]
  exact Nat.min_eq_left (hn.trans (pow_le_pow_right₀ (by decide) (by decide)))

/-- **Whole numbers up to `2 ^ 53` are numbers of the format.** -/
theorem denotes_of_natAbs_le {i : Int} (h : i.natAbs ≤ 2 ^ 53) : (ofInt i).Denotes i := by
  have hplace := place_of_le h
  cases hround : ofFraction? i.natAbs 1 with
  | some x =>
    rw [hround] at hplace
    exact denotes_of_ofFraction? hround hplace
  | none =>
    rw [hround] at hplace
    -- What lies beyond every magnitude has a place that no such number reaches.
    have hlt : i.natAbs * oneInUnits < 2 ^ 2098 :=
      (mul_oneInUnits_le h).trans_lt (pow_lt_pow_right₀ (by decide) (by decide))
    exact absurd hplace (Nat.ne_of_gt hlt)

end Binary64

end AccessRules.Number
