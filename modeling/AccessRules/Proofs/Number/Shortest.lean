import AccessRules.Proofs.Number.Nearest

/-!
# The shortest decimal of a number

The decimal with the fewest digits is looked for on finer and finer grids, with the exact decimal in
reserve, and it is taken only if it reads back:

> `nearest?_shortest`: the shortest decimal of a magnitude is read to the magnitude.
> `le_size_shortest_iff`: it reaches a power of ten exactly from the number on that the power is read
> to, if that number is written as this power.
-/

namespace AccessRules.Number

open Decimal

variable {x : Magnitude} {d : Decimal} {tie : Tie}

/-! ## Zeros at the end -/

/-- Digits that follow move the ones in front by as many places. -/
theorem ofDigits_append (cs ds : List Char) :
    ofDigits (cs ++ ds) = ofDigits cs * 10 ^ ds.length + ofDigits ds := by
  show Nat.ofDigitChars 10 (cs ++ ds) 0 = _
  rw [Nat.ofDigitChars_append, Nat.ofDigitChars_eq_ofDigitChars_zero, Nat.mul_comm]
  rfl

theorem ofDigits_replicate_zero (k : Nat) : ofDigits (List.replicate k '0') = 0 := by
  show Nat.ofDigitChars 10 (List.replicate k '0') 0 = 0
  rw [Nat.ofDigitChars_replicate_zero, Nat.mul_zero]

/-- Zeros behind some digits are powers of ten. -/
theorem ofDigits_append_zeros (cs : List Char) (k : Nat) :
    ofDigits (cs ++ List.replicate k '0') = ofDigits cs * 10 ^ k := by
  rw [ofDigits_append, ofDigits_replicate_zero, List.length_replicate, Nat.add_zero]

/-- Zeros in front of some digits count for nothing. -/
theorem ofDigits_zeros_append (k : Nat) (cs : List Char) :
    ofDigits (List.replicate k '0' ++ cs) = ofDigits cs := by
  rw [ofDigits_append, ofDigits_replicate_zero, Nat.zero_mul, Nat.zero_add]

/-- The decimal digits of a number are read back as the number. -/
theorem ofDigits_decimalDigits (n : Nat) : ofDigits (decimalDigits n) = n :=
  Nat.ofDigitChars_ten_toDigits

/-- The zeros at the end of some digits are powers of ten that divide their number. -/
theorem exists_ofDigits_eq_mul (cs : List Char) :
    ∃ m, ofDigits cs = m * 10 ^ (cs.reverse.takeWhile (· = '0')).length := by
  have hsplit := List.takeWhile_append_dropWhile (p := (· = '0')) (l := cs.reverse)
  have hzeros : cs.reverse.takeWhile (· = '0') =
      List.replicate (cs.reverse.takeWhile (· = '0')).length '0' := by
    refine List.eq_replicate_iff.mpr ⟨rfl, ?_⟩
    intro c hc
    simpa using List.all_eq_true.mp List.all_takeWhile c hc
  generalize (cs.reverse.takeWhile (· = '0')).length = k at *
  have hcs : cs = (cs.reverse.dropWhile (· = '0')).reverse ++ List.replicate k '0' := by
    rw [hzeros] at hsplit
    have hreverse := congrArg List.reverse hsplit
    rw [List.reverse_append, List.reverse_reverse, List.reverse_replicate] at hreverse
    exact hreverse.symm
  refine ⟨ofDigits (cs.reverse.dropWhile (· = '0')).reverse, ?_⟩
  calc ofDigits cs
      = ofDigits ((cs.reverse.dropWhile (· = '0')).reverse ++ List.replicate k '0') :=
        congrArg ofDigits hcs
    _ = ofDigits (cs.reverse.dropWhile (· = '0')).reverse * 10 ^ k := ofDigits_append_zeros _ k

/-- Moving zeros from the end of the digits into the exponent keeps the value. -/
theorem value_withoutTrailingZeros (d : Decimal) : d.withoutTrailingZeros.value = d.value := by
  unfold withoutTrailingZeros
  dsimp only
  split
  · rfl
  · obtain ⟨m, hm⟩ := exists_ofDigits_eq_mul (decimalDigits d.digits)
    rw [ofDigits_decimalDigits] at hm
    -- How many zeros there are does not matter for the value.
    generalize ((decimalDigits d.digits).reverse.takeWhile (· = '0')).length = k at *
    have hquotient : d.digits / Nat.pow 10 k = m := by
      rw [hm, Nat.pow_eq, Nat.mul_div_cancel _ (Nat.pow_pos (by decide))]
    rw [value, value, hquotient, hm, zpow_add₀ (by norm_num), zpow_natCast]
    push_cast
    ring

/-! ## The exact decimal -/

/-- The exact decimal of a magnitude has its value, without any rounding. -/
theorem value_exactDecimal (x : Magnitude) :
    x.exactDecimal.value = x.units / Magnitude.oneInUnits := by
  have hone : (Magnitude.oneInUnits : ℚ) ≠ 0 :=
    Nat.cast_ne_zero.mpr Magnitude.oneInUnits_pos.ne'
  have hleast := x.canonical.2.1
  rw [eq_div_iff hone, Magnitude.units_eq]
  unfold Magnitude.exactDecimal
  split
  next h =>
    obtain ⟨k, hk⟩ := Int.eq_ofNat_of_zero_le h
    have hgrid : x.grid = k + 1074 := by
      rw [Magnitude.grid]
      omega
    have hpow : 2 ^ x.grid = 2 ^ k * Magnitude.oneInUnits := by
      rw [hgrid, pow_add, Magnitude.oneInUnits]
    rw [value, hpow, hk, Int.toNat_natCast, Nat.pow_eq]
    push_cast
    ring
  next h =>
    -- A negative power of two is as many fives behind the point, since `1 / 2 ^ k = 5 ^ k / 10 ^
    -- k`.
    obtain ⟨k, hk⟩ : ∃ k : Nat, x.exponent = -(k : Int) := ⟨(-x.exponent).toNat, by omega⟩
    have hgrid : 1074 = x.grid + k := by
      rw [Magnitude.grid]
      omega
    have hpow : Magnitude.oneInUnits = 2 ^ x.grid * 2 ^ k := by
      rw [Magnitude.oneInUnits, ← pow_add, ← hgrid]
    have hten : (10 : ℚ) ^ k = 2 ^ k * 5 ^ k := by
      rw [← mul_pow]
      norm_num
    rw [value, hpow, hk, Int.neg_neg, Int.toNat_natCast, Nat.pow_eq, zpow_neg, zpow_natCast, hten]
    push_cast
    field_simp

/-! ## What is found reads back -/

/-- A decimal that passes the check is rounded to the magnitude it was made for. -/
theorem nearest?_of_readsBack (h : x.readsBack d = true) : d.nearest? = some x := by
  have hread := eq_of_beq h
  rw [toBinary64_eq] at hread
  exact ofNearest_injective hread

/-- A rounded quotient is one of the two whole numbers around the quotient. -/
theorem roundedQuotient_eq_or (tie : Tie) (a b : Nat) :
    roundedQuotient tie a b = a / b ∨ roundedQuotient tie a b = a / b + 1 := by
  unfold roundedQuotient
  grind

/-- What is found on a grid reads back. -/
theorem nearest?_of_onGrid? {e : Int} (h : x.onGrid? tie e = some d) : d.nearest? = some x := by
  unfold Magnitude.onGrid? at h
  dsimp only at h
  split at h
  next hbelow habove =>
    cases h
    -- Both neighbours read back, and the rounded one is one of them.
    rcases roundedQuotient_eq_or tie _ _ with heq | heq
    · rw [heq]
      exact nearest?_of_readsBack hbelow
    · rw [heq]
      exact nearest?_of_readsBack habove
  next hbelow _ =>
    cases h
    exact nearest?_of_readsBack hbelow
  next _ habove =>
    cases h
    exact nearest?_of_readsBack habove
  next => cases h

/-- **The shortest decimal reads back.** -/
theorem nearest?_shortest (tie : Tie) (x : Magnitude) : (x.shortest tie).nearest? = some x := by
  unfold Magnitude.shortest
  split
  next hzero =>
    refine nearest?_of_value x ?_
    rw [value, Magnitude.units_eq, hzero, Nat.zero_mul, Nat.cast_zero, zero_mul, zero_div]
  next =>
    rw [nearest?_congr (value_withoutTrailingZeros _)]
    -- Where no grid up to 17 digits reads back, the exact decimal is taken, which always does.
    cases hfind : ((List.range 17).map fun n : Nat => x.decimalPoint - (n + 1)).findSome?
        (x.onGrid? tie) with
    | none =>
      rw [Option.getD_none]
      exact nearest?_of_value x (value_exactDecimal x)
    | some d =>
      obtain ⟨e, -, hgrid⟩ := List.exists_of_findSome?_eq_some hfind
      rw [Option.getD_some]
      exact nearest?_of_onGrid? hgrid

/-! ## Sizes and thresholds -/

/-- Only zero has the digit zero. -/
theorem digits_shortest_ne_zero (hx : x.significand ≠ 0) : (x.shortest tie).digits ≠ 0 := by
  intro hzero
  have hback := nearest?_shortest tie x
  rw [nearest?_of_digits_eq_zero hzero] at hback
  cases hback
  exact hx rfl

/-- The shortest decimal of a number reaches a power of ten exactly from the number on that this
power is read to, if this power is the shortest decimal of that number. -/
theorem le_size_shortest_iff {p : Int} {t : Magnitude} (hread : (⟨1, p⟩ : Decimal).nearest? = some t)
    (hshortest : t.shortest tie = ⟨1, p⟩) (hx : x.significand ≠ 0) :
    p ≤ (x.shortest tie).size - 1 ↔ t.units ≤ x.units := by
  have hback := nearest?_shortest tie x
  constructor
  · intro hsize
    have hvalue : (⟨1, p⟩ : Decimal).value ≤ (x.shortest tie).value := by
      rw [value_one]
      exact (zpow_le_zpow_right₀ (by norm_num) hsize).trans (le_value (digits_shortest_ne_zero hx))
    have hplace := place_nearest?_mono hvalue
    rw [hread, hback] at hplace
    exact hplace
  · intro hunits
    -- A shorter size would put the decimal below the power, and the number at most at its number.
    refine Int.le_of_not_gt fun hsize => ?_
    have hvalue : (x.shortest tie).value ≤ (⟨1, p⟩ : Decimal).value := by
      rw [value_one]
      exact (value_lt _).le.trans (zpow_le_zpow_right₀ (by norm_num) (by omega))
    have hplace := place_nearest?_mono hvalue
    rw [hread, hback] at hplace
    -- So the number is the one that the power is read to, and is written as the power.
    obtain rfl : x = t := Magnitude.units_injective (Nat.le_antisymm hplace hunits)
    have hlength : (decimalDigits 1).length = 1 := rfl
    rw [hshortest, size, hlength] at hsize
    dsimp only at hsize
    omega

end AccessRules.Number
