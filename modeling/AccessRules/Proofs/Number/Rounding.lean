import AccessRules.Number.Decimal
import Mathlib.Tactic.Ring
import Mathlib.Tactic.Linarith

/-!
# Rounding is monotone and exact

A fraction is rounded on the grid of the multiples of `2 ^ k` units on which it has 53 significant
bits; a unit is the least positive value, `2 ^ -1074`. Larger numbers have coarser grids, and the
first number of a coarser grid is one of the finer grid too, so rounding keeps the order of fractions
however far apart they lie:

> `place_ofFraction?_mono`: of two fractions the larger one is rounded to no less than the other.
> `ofFraction?_of_units`: a fraction that is the value of a magnitude is rounded to it.
-/

namespace AccessRules.Number

/-! ## Rounding a quotient -/

/-- A quotient is rounded to at most `m` if it lies before the middle between `m` and `m + 1`, or in
the middle and `m` is even. -/
theorem roundedQuotient_le_iff {a b m : Nat} (hb : 0 < b) :
    roundedQuotient .even a b ≤ m ↔
      2 * a < (2 * m + 1) * b ∨ 2 * a = (2 * m + 1) * b ∧ m % 2 = 0 := by
  have ha : a = a / b * b + a % b := by
    rw [Nat.mul_comm]
    exact (Nat.div_add_mod a b).symm
  have hr : a % b < b := Nat.mod_lt a hb
  have hmiddle : (2 * m + 1) * b = 2 * (m * b) + b := by ring
  unfold roundedQuotient
  rw [hmiddle]
  dsimp only
  generalize a / b = q at *
  generalize a % b = r at *
  -- Only where `m` is the quotient itself does the remainder decide; elsewhere a whole multiple of
  -- `b` lies between.
  rcases Nat.lt_trichotomy m q with hlt | rfl | hlt
  · have hstep := Nat.mul_le_mul_right b hlt
    rw [Nat.succ_mul] at hstep
    grind
  · grind
  · have hstep := Nat.mul_le_mul_right b hlt
    rw [Nat.succ_mul] at hstep
    grind

/-- A larger quotient is rounded to no less. -/
theorem roundedQuotient_mono {a b a' b' : Nat} (hb : 0 < b) (hb' : 0 < b')
    (h : a * b' ≤ a' * b) : roundedQuotient .even a b ≤ roundedQuotient .even a' b' := by
  rw [roundedQuotient_le_iff hb]
  generalize hm : roundedQuotient .even a' b' = m
  have hdouble : 2 * a * b' ≤ 2 * a' * b := by
    rw [Nat.mul_assoc, Nat.mul_assoc]
    exact Nat.mul_le_mul_left 2 h
  -- The larger quotient lies below the middle above `m`, or in it with `m` even; the smaller one
  -- cannot lie above.
  rcases (roundedQuotient_le_iff hb').mp (Nat.le_of_eq hm) with hlt | ⟨heq, heven⟩
  · left
    refine Nat.lt_of_mul_lt_mul_right (a := b') ?_
    calc 2 * a * b' ≤ 2 * a' * b := hdouble
      _ < (2 * m + 1) * b' * b := Nat.mul_lt_mul_of_pos_right hlt hb
      _ = (2 * m + 1) * b * b' := Nat.mul_right_comm _ _ _
  · have hle : 2 * a ≤ (2 * m + 1) * b := by
      refine Nat.le_of_mul_le_mul_right ?_ hb'
      calc 2 * a * b' ≤ 2 * a' * b := hdouble
        _ = (2 * m + 1) * b * b' := by rw [heq, Nat.mul_right_comm]
    rcases Nat.lt_or_eq_of_le hle with hlt | heq
    · exact .inl hlt
    · exact .inr ⟨heq, heven⟩

/-- A whole quotient stays as it is. -/
theorem roundedQuotient_mul {b : Nat} (hb : 0 < b) (m : Nat) :
    roundedQuotient .even (m * b) b = m := by
  unfold roundedQuotient
  rw [Nat.mul_mod_left, Nat.mul_div_cancel _ hb]
  exact if_pos hb

/-! ## Grids -/

/-- The grid of the multiples of `2 ^ k` is the one that `a / b` is rounded on: it has 53 significant
bits there, or fewer on the finest grid. -/
structure Binade (k a b : Nat) : Prop where
  below : a < 2 ^ (53 + k) * b
  above : k = 0 ∨ 2 ^ (52 + k) * b ≤ a

/-- `a / b` rounded on the grid of the multiples of `2 ^ k`. -/
def rounded (k a b : Nat) : Nat :=
  roundedQuotient .even a (b * 2 ^ k) * 2 ^ k

section

variable {k k' a b a' b' : Nat}

/-- A larger number has no finer grid. -/
theorem Binade.le_of_le (h : Binade k a b) (h' : Binade k' a' b') (hb : 0 < b)
    (hle : a * b' ≤ a' * b) : k ≤ k' := by
  refine Nat.le_of_not_lt fun hlt => ?_
  have habove : 2 ^ (52 + k) * b ≤ a := h.above.resolve_left (by omega)
  have hpow : 2 ^ (53 + k') ≤ 2 ^ (52 + k) := pow_le_pow_right₀ (by decide) (by omega)
  -- On a finer grid the larger number would stay below the least one of the coarser grid.
  have hcontra : a' * b < a' * b := by
    calc a' * b < 2 ^ (53 + k') * b' * b := Nat.mul_lt_mul_of_pos_right h'.below hb
      _ ≤ 2 ^ (52 + k) * b' * b := Nat.mul_le_mul_right b (Nat.mul_le_mul_right b' hpow)
      _ = 2 ^ (52 + k) * b * b' := Nat.mul_right_comm _ _ _
      _ ≤ a * b' := Nat.mul_le_mul_right b' habove
      _ ≤ a' * b := hle
  exact Nat.lt_irrefl _ hcontra

/-- Rounding stays within the binade or reaches its upper end. -/
theorem Binade.rounded_le (h : Binade k a b) (hb : 0 < b) : rounded k a b ≤ 2 ^ (53 + k) := by
  have hscale : 0 < b * 2 ^ k := Nat.mul_pos hb (Nat.two_pow_pos k)
  have hbelow : a * 1 ≤ 2 ^ 53 * (b * 2 ^ k) := by
    have hlt := h.below
    rw [pow_add] at hlt
    rw [Nat.mul_one]
    calc a ≤ 2 ^ 53 * 2 ^ k * b := Nat.le_of_lt hlt
      _ = 2 ^ 53 * (b * 2 ^ k) := by ring
  have hquotient := roundedQuotient_mono hscale Nat.one_pos hbelow
  have hwhole := roundedQuotient_mul Nat.one_pos (2 ^ 53)
  rw [Nat.mul_one] at hwhole
  rw [hwhole] at hquotient
  rw [rounded, pow_add]
  exact Nat.mul_le_mul_right _ hquotient

/-- Rounding does not leave a binade at its lower end. -/
theorem Binade.le_rounded (h : Binade k a b) (hb : 0 < b) (hk : k ≠ 0) :
    2 ^ (52 + k) ≤ rounded k a b := by
  have hscale : 0 < b * 2 ^ k := Nat.mul_pos hb (Nat.two_pow_pos k)
  have habove : 2 ^ 52 * (b * 2 ^ k) ≤ a * 1 := by
    have hle := h.above.resolve_left hk
    rw [pow_add] at hle
    rw [Nat.mul_one]
    calc 2 ^ 52 * (b * 2 ^ k) = 2 ^ 52 * 2 ^ k * b := by ring
      _ ≤ a := hle
  have hquotient := roundedQuotient_mono Nat.one_pos hscale habove
  have hwhole := roundedQuotient_mul Nat.one_pos (2 ^ 52)
  rw [Nat.mul_one] at hwhole
  rw [hwhole] at hquotient
  rw [rounded, pow_add]
  exact Nat.mul_le_mul_right _ hquotient

/-- A larger number is rounded to no less, on whatever grids the two are rounded. -/
theorem rounded_mono (h : Binade k a b) (h' : Binade k' a' b') (hb : 0 < b) (hb' : 0 < b')
    (hle : a * b' ≤ a' * b) : rounded k a b ≤ rounded k' a' b' := by
  rcases Nat.lt_or_eq_of_le (h.le_of_le h' hb hle) with hlt | rfl
  · -- The first number of the coarser grid lies between the two.
    calc rounded k a b ≤ 2 ^ (53 + k) := h.rounded_le hb
      _ ≤ 2 ^ (52 + k') := pow_le_pow_right₀ (by decide) (by omega)
      _ ≤ rounded k' a' b' := h'.le_rounded hb' (by omega)
  · refine Nat.mul_le_mul_right _ (roundedQuotient_mono ?_ ?_ ?_)
    · exact Nat.mul_pos hb (Nat.two_pow_pos k)
    · exact Nat.mul_pos hb' (Nat.two_pow_pos k)
    · rw [← Nat.mul_assoc, ← Nat.mul_assoc]
      exact Nat.mul_le_mul_right _ hle

/-- A multiple of its grid stays as it is. -/
theorem rounded_mul (hb : 0 < b) (s : Nat) : rounded k (s * 2 ^ k * b) b = s * 2 ^ k := by
  have hwhole : s * 2 ^ k * b = s * (b * 2 ^ k) := by ring
  rw [rounded, hwhole, roundedQuotient_mul (Nat.mul_pos hb (Nat.two_pow_pos k))]

end

/-! ## Magnitudes in units -/

namespace Magnitude

/-- The value one in units. -/
def oneInUnits : Nat := 2 ^ 1074

theorem oneInUnits_pos : 0 < oneInUnits :=
  pow_pos Nat.two_pos 1074

/-- The number of the grid that the magnitude lies on. -/
def grid (x : Magnitude) : Nat :=
  (x.exponent + 1074).toNat

theorem units_eq (x : Magnitude) : x.units = x.significand * 2 ^ x.grid :=
  rfl

theorem grid_le (x : Magnitude) : x.grid ≤ 2045 := by
  obtain ⟨-, -, hgreatest, -⟩ := x.canonical
  rw [grid]
  omega

/-- All finite magnitudes lie below the place of what is too large. -/
theorem units_lt (x : Magnitude) : x.units < 2 ^ 2098 := by
  obtain ⟨hbelow, -, -, -⟩ := x.canonical
  rw [Nat.pow_eq] at hbelow
  have hgrid := x.grid_le
  calc x.units < 2 ^ 53 * 2 ^ x.grid := Nat.mul_lt_mul_of_pos_right hbelow (Nat.two_pow_pos _)
    _ = 2 ^ (53 + x.grid) := (pow_add ..).symm
    _ ≤ 2 ^ 2098 := pow_le_pow_right₀ (by decide) (by omega)

/-- A magnitude lies on the grid that it is rounded on. -/
theorem binade_units (x : Magnitude) {d : Nat} (hd : 0 < d) :
    Binade x.grid (x.units * d) d := by
  obtain ⟨hbelow, -, -, habove⟩ := x.canonical
  rw [Nat.pow_eq] at hbelow habove
  rw [units_eq]
  refine ⟨?_, ?_⟩
  · rw [pow_add]
    exact Nat.mul_lt_mul_of_pos_right (Nat.mul_lt_mul_of_pos_right hbelow (Nat.two_pow_pos _)) hd
  · rcases habove with habove | hleast
    · right
      rw [pow_add]
      exact Nat.mul_le_mul_right _ (Nat.mul_le_mul_right _ habove)
    · left
      rw [grid, hleast]
      rfl

/-- Magnitudes with the same value are the same. -/
theorem units_injective {x y : Magnitude} (h : x.units = y.units) : x = y := by
  have hx := x.binade_units Nat.one_pos
  have hy := y.binade_units Nat.one_pos
  -- Equal values lie on one grid, and there the significands can be compared.
  have hgrid : x.grid = y.grid := by
    refine Nat.le_antisymm (hx.le_of_le hy Nat.one_pos ?_) (hy.le_of_le hx Nat.one_pos ?_)
    · rw [h]
    · rw [h]
  have hexponent : x.exponent = y.exponent := by
    have hx := x.canonical.2.1
    have hy := y.canonical.2.1
    rw [grid, grid] at hgrid
    omega
  have hsignificand : x.significand = y.significand := by
    rw [units_eq, units_eq, hgrid] at h
    exact Nat.eq_of_mul_eq_mul_right (Nat.two_pow_pos _) h
  cases x
  cases y
  cases hexponent
  cases hsignificand
  rfl

/-- The place of what a fraction was rounded to, in units; what lies beyond the greatest magnitude
has the place behind it. -/
def place : Option Magnitude → Nat
  | some x => x.units
  | none => 2 ^ 2098

/-- Different outcomes have different places, so a place says which outcome it is. -/
theorem place_injective {o o' : Option Magnitude} (h : place o = place o') : o = o' := by
  cases o with
  | none =>
    cases o' with
    | none => rfl
    | some y => exact absurd h.symm (Nat.ne_of_lt y.units_lt)
  | some x =>
    cases o' with
    | none => exact absurd h (Nat.ne_of_lt x.units_lt)
    | some y => exact congrArg some (units_injective h)

/-! ## Rounding a fraction -/

variable {n d n' d' : Nat}

/-- A fraction with an exponent taken out, as the same number of units. -/
theorem scaledFraction_eq {e : Int} (he : -1074 ≤ e) (n d : Nat) :
    (scaledFraction n d (-e)).1 * (d * 2 ^ (e + 1074).toNat) =
      n * oneInUnits * (scaledFraction n d (-e)).2 := by
  unfold scaledFraction
  by_cases h : 0 ≤ -e
  · have hsum : (-e).toNat + (e + 1074).toNat = 1074 := by omega
    rw [if_pos h, Nat.pow_eq]
    calc n * 2 ^ (-e).toNat * (d * 2 ^ (e + 1074).toNat)
        = n * (2 ^ (-e).toNat * 2 ^ (e + 1074).toNat) * d := by ring
      _ = n * oneInUnits * d := by rw [← pow_add, hsum, oneInUnits]
  · have hsum : (e + 1074).toNat = 1074 + e.toNat := by omega
    rw [if_neg h, Int.neg_neg, Nat.pow_eq, hsum, pow_add, ← oneInUnits]
    ring

/-- Scaling by a power of ten leaves the denominator positive. -/
theorem scaledFraction_pos (hd : 0 < d) (n : Nat) (e : Int) : 0 < (scaledFraction n d e).2 := by
  unfold scaledFraction
  split
  · exact hd
  · exact Nat.mul_pos hd (Nat.two_pow_pos _)

/-- A fraction with an exponent taken out is rounded like the number of units on that grid. -/
theorem roundedQuotient_scaledFraction {e : Int} (he : -1074 ≤ e) (hd : 0 < d) (n : Nat) :
    roundedQuotient .even (scaledFraction n d (-e)).1 (scaledFraction n d (-e)).2 =
      roundedQuotient .even (n * oneInUnits) (d * 2 ^ (e + 1074).toNat) := by
  have hscaled := scaledFraction_eq he n d
  have hpos := scaledFraction_pos hd n (-e)
  have hscale : 0 < d * 2 ^ (e + 1074).toNat := Nat.mul_pos hd (Nat.two_pow_pos _)
  refine Nat.le_antisymm ?_ ?_
  · exact roundedQuotient_mono hpos hscale (Nat.le_of_eq hscaled)
  · exact roundedQuotient_mono hscale hpos (Nat.le_of_eq hscaled.symm)

/-- The quotient by a power of two has at most 53 bits exactly if the fraction lies below the end of
the grid. -/
theorem scaledFraction_div_lt_iff {e : Int} (he : -1074 ≤ e) (hd : 0 < d) (n : Nat) :
    (scaledFraction n d (-e)).1 / (scaledFraction n d (-e)).2 < 2 ^ 53 ↔
      n * oneInUnits < 2 ^ (53 + (e + 1074).toNat) * d := by
  have hpos := scaledFraction_pos hd n (-e)
  have hscale : 0 < d * 2 ^ (e + 1074).toNat := Nat.mul_pos hd (Nat.two_pow_pos _)
  have hbound : 2 ^ 53 * (scaledFraction n d (-e)).2 * (d * 2 ^ (e + 1074).toNat) =
      2 ^ (53 + (e + 1074).toNat) * d * (scaledFraction n d (-e)).2 := by
    rw [pow_add]
    ring
  rw [Nat.div_lt_iff_lt_mul hpos, ← Nat.mul_lt_mul_right hscale, scaledFraction_eq he, hbound,
    Nat.mul_lt_mul_right hpos]

/-- The exponent of a fraction is that of its grid. The lengths of the two numbers give the exponent
up to one, and the quotient tells which it is. -/
theorem binade_exponentOf (hn : 0 < n) (hd : 0 < d) :
    -1074 ≤ exponentOf n d ∧ Binade (exponentOf n d + 1074).toNat (n * oneInUnits) d := by
  unfold exponentOf
  dsimp only
  generalize hguess : max ((n.log2 : Int) - d.log2 - 53) (-1074) = guess
  have hleast : -1074 ≤ guess := by omega
  have hquotient := scaledFraction_div_lt_iff hleast hd n
  generalize hg : (guess + 1074).toNat = g at hquotient
  -- The lengths alone say that the number is no lower than this grid and no higher than the next.
  have hlow : g = 0 ∨ 2 ^ (52 + g) * d ≤ n * oneInUnits := by
    rcases Nat.eq_zero_or_pos g with hzero | hg0
    · exact .inl hzero
    · right
      calc 2 ^ (52 + g) * d ≤ 2 ^ (52 + g) * 2 ^ (d.log2 + 1) :=
            Nat.mul_le_mul_left _ (Nat.le_of_lt Nat.lt_log2_self)
        _ = 2 ^ n.log2 * oneInUnits := by
            rw [← pow_add, oneInUnits, ← pow_add]
            congr 1
            omega
        _ ≤ n * oneInUnits := Nat.mul_le_mul_right _ (Nat.log2_self_le (by omega))
  have hhigh : n * oneInUnits < 2 ^ (53 + (g + 1)) * d := by
    calc n * oneInUnits < 2 ^ (n.log2 + 1) * oneInUnits :=
          Nat.mul_lt_mul_of_pos_right Nat.lt_log2_self oneInUnits_pos
      _ ≤ 2 ^ (53 + (g + 1)) * 2 ^ d.log2 := by
          rw [oneInUnits, ← pow_add, ← pow_add]
          exact pow_le_pow_right₀ (by decide) (by omega)
      _ ≤ 2 ^ (53 + (g + 1)) * d := Nat.mul_le_mul_left _ (Nat.log2_self_le (by omega))
  split
  next hsmall =>
    rw [hg]
    exact ⟨hleast, hquotient.mp hsmall, hlow⟩
  next hlarge =>
    have hnext : (guess + 1 + 1074).toNat = g + 1 := by omega
    rw [hnext]
    refine ⟨by omega, hhigh, .inr ?_⟩
    have hle := Nat.le_of_not_lt (hquotient.not.mp hlarge)
    have hexponent : 52 + (g + 1) = 53 + g := by omega
    rw [hexponent]
    exact hle

/-- The place of the parts that rounding ends with. -/
theorem place_ofParts? {s : Nat} {e : Int} (hs : s < 2 ^ 53) (he : -1074 ≤ e)
    (hlow : 2 ^ 52 ≤ s ∨ e = -1074) :
    place (ofParts? s e) = min (s * 2 ^ (e + 1074).toNat) (2 ^ 2098) := by
  by_cases hgreatest : e ≤ 971
  · have hcanonical : Canonical s e := ⟨hs, he, hgreatest, hlow⟩
    rw [ofParts?, dif_pos hcanonical, place]
    exact (Nat.min_eq_left (Nat.le_of_lt (units_lt ⟨s, e, hcanonical⟩))).symm
  · have hnot : ¬Canonical s e := fun hcanonical => hgreatest hcanonical.2.2.1
    have hs : 2 ^ 52 ≤ s := hlow.resolve_right (by omega)
    rw [ofParts?, dif_neg hnot, place]
    refine (Nat.min_eq_right ?_).symm
    calc 2 ^ 2098 ≤ 2 ^ (52 + (e + 1074).toNat) := pow_le_pow_right₀ (by decide) (by omega)
      _ = 2 ^ 52 * 2 ^ (e + 1074).toNat := pow_add ..
      _ ≤ s * 2 ^ (e + 1074).toNat := Nat.mul_le_mul_right _ hs

/-- A fraction is rounded on its grid. -/
theorem exists_place_ofFraction? (hd : 0 < d) (n : Nat) :
    ∃ k, Binade k (n * oneInUnits) d ∧
      place (ofFraction? n d) = min (rounded k (n * oneInUnits) d) (2 ^ 2098) := by
  unfold ofFraction?
  by_cases hn : n = 0
  · subst hn
    refine ⟨0, ⟨?_, .inl rfl⟩, ?_⟩
    · rw [Nat.zero_mul]
      exact Nat.mul_pos (Nat.two_pow_pos _) hd
    · have hzero := rounded_mul (k := 0) hd 0
      rw [Nat.zero_mul, Nat.zero_mul] at hzero
      rw [if_pos rfl, Nat.zero_mul, hzero, Nat.zero_min]
      exact Nat.zero_mul _
  · obtain ⟨hleast, hbinade⟩ := binade_exponentOf (Nat.pos_of_ne_zero hn) hd
    refine ⟨_, hbinade, ?_⟩
    rw [if_neg hn]
    dsimp only
    generalize exponentOf n d = e at *
    have hhigh := hbinade.rounded_le hd
    have hlow := hbinade.le_rounded hd
    rw [roundedQuotient_scaledFraction hleast hd]
    unfold rounded at hhigh hlow ⊢
    generalize roundedQuotient .even (n * oneInUnits) (d * 2 ^ (e + 1074).toNat) = s at *
    rw [pow_add] at hhigh hlow
    have hs : s ≤ 2 ^ 53 := Nat.le_of_mul_le_mul_right hhigh (Nat.two_pow_pos _)
    split
    next hcarry =>
      -- The significand has one bit too many, which is the first of the next grid.
      have hnext : (e + 1 + 1074).toNat = (e + 1074).toNat + 1 := by omega
      rw [Nat.pow_eq, place_ofParts? (by decide) (by omega) (.inl (Nat.le_refl _)), hcarry, hnext,
        Nat.pow_eq, pow_succ]
      congr 1
      ring
    next hno =>
      rw [Nat.pow_eq] at hno
      refine place_ofParts? (Nat.lt_of_le_of_ne hs hno) hleast ?_
      rcases Nat.eq_zero_or_pos (e + 1074).toNat with hzero | hk
      · exact .inr (by omega)
      · exact .inl (Nat.le_of_mul_le_mul_right (hlow (by omega)) (Nat.two_pow_pos _))

/-- **A larger fraction is rounded to no less.** -/
theorem place_ofFraction?_mono (hd : 0 < d) (hd' : 0 < d') (h : n * d' ≤ n' * d) :
    place (ofFraction? n d) ≤ place (ofFraction? n' d') := by
  obtain ⟨k, hbinade, hplace⟩ := exists_place_ofFraction? hd n
  obtain ⟨k', hbinade', hplace'⟩ := exists_place_ofFraction? hd' n'
  have hle : n * oneInUnits * d' ≤ n' * oneInUnits * d := by
    rw [Nat.mul_right_comm, Nat.mul_right_comm n']
    exact Nat.mul_le_mul_right _ h
  rw [hplace, hplace']
  exact min_le_min_right _ (rounded_mono hbinade hbinade' hd hd' hle)

/-- **A fraction that is the value of a magnitude is rounded to it.** -/
theorem ofFraction?_of_units (x : Magnitude) (hd : 0 < d) (h : n * oneInUnits = x.units * d) :
    ofFraction? n d = some x := by
  obtain ⟨k, hbinade, hplace⟩ := exists_place_ofFraction? hd n
  rw [h] at hbinade hplace
  have hx := x.binade_units hd
  -- There is one grid for each fraction, and the magnitude lies on that one.
  have hgrid : k = x.grid := by
    refine Nat.le_antisymm (hbinade.le_of_le hx hd ?_) (hx.le_of_le hbinade hd ?_)
    · exact Nat.le_refl _
    · exact Nat.le_refl _
  rw [hgrid, units_eq, rounded_mul hd, ← units_eq,
    Nat.min_eq_left (Nat.le_of_lt x.units_lt)] at hplace
  exact place_injective hplace

end Magnitude

end AccessRules.Number
