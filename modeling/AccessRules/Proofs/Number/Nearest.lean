import AccessRules.Proofs.Number.Rounding
import Mathlib.Algebra.Order.Field.Power
import Mathlib.Data.Rat.Cast.Order
import Mathlib.Tactic.FieldSimp
import Mathlib.Tactic.Positivity

/-!
# What a decimal is read to

A decimal is read to the number nearest to its value, and the shortcuts for very long exponents make
no difference (`toBinary64_eq`). So reading keeps the order of decimals (`place_nearest?_mono`), and
decimals of one value are read to one number (`nearest?_congr`).
-/

namespace AccessRules.Number

open Magnitude

namespace Decimal

variable {d d' : Decimal}

/-- The value of a decimal. -/
def value (d : Decimal) : ℚ :=
  d.digits * 10 ^ d.exponent

/-- The magnitude nearest to a decimal; none if that lies beyond the greatest. -/
def nearest? (d : Decimal) : Option Magnitude :=
  ofFraction? d.fraction.1 d.fraction.2

/-- The denominator of a decimal is a power of ten or one, never zero. -/
theorem fraction_pos (d : Decimal) : 0 < d.fraction.2 := by
  unfold fraction
  split
  · exact Nat.one_pos
  · exact Nat.pow_pos (by decide)

/-- A decimal is the value of its fraction. -/
theorem value_eq (d : Decimal) : d.value = d.fraction.1 / d.fraction.2 := by
  obtain ⟨n, e⟩ := d
  unfold value fraction
  by_cases h : 0 ≤ e
  · obtain ⟨k, rfl⟩ := Int.eq_ofNat_of_zero_le h
    simp
  · obtain ⟨k, rfl⟩ : ∃ k : Nat, e = -(k : Int) := ⟨(-e).toNat, by omega⟩
    simp only [if_neg h, Int.neg_neg, Int.toNat_natCast]
    simp [div_eq_mul_inv]

/-- Fractions multiplied out compare as the decimals do. -/
theorem fraction_le_iff :
    d.fraction.1 * d'.fraction.2 ≤ d'.fraction.1 * d.fraction.2 ↔ d.value ≤ d'.value := by
  have hd : (0 : ℚ) < d.fraction.2 := Nat.cast_pos.mpr d.fraction_pos
  have hd' : (0 : ℚ) < d'.fraction.2 := Nat.cast_pos.mpr d'.fraction_pos
  rw [value_eq, value_eq, div_le_div_iff₀ hd hd']
  exact_mod_cast Iff.rfl

/-- **A larger decimal is read to no less.** -/
theorem place_nearest?_mono (h : d.value ≤ d'.value) : place d.nearest? ≤ place d'.nearest? :=
  place_ofFraction?_mono d.fraction_pos d'.fraction_pos (fraction_le_iff.mpr h)

/-- Decimals of one value are read to one number. -/
theorem nearest?_congr (h : d.value = d'.value) : d.nearest? = d'.nearest? :=
  place_injective (Nat.le_antisymm (place_nearest?_mono h.le) (place_nearest?_mono h.ge))

/-- A decimal that is the value of a magnitude is read to it. -/
theorem nearest?_of_value (x : Magnitude) (h : d.value = x.units / oneInUnits) :
    d.nearest? = some x := by
  have hd : (d.fraction.2 : ℚ) ≠ 0 := Nat.cast_ne_zero.mpr d.fraction_pos.ne'
  have hone : (oneInUnits : ℚ) ≠ 0 := Nat.cast_ne_zero.mpr oneInUnits_pos.ne'
  refine ofFraction?_of_units x d.fraction_pos ?_
  rw [value_eq, div_eq_div_iff hd hone] at h
  exact_mod_cast h

/-! ## The size of a decimal -/

theorem length_decimalDigits_pos (n : Nat) : 0 < (decimalDigits n).length :=
  Nat.length_toDigits_pos

/-- A number is below the power of ten that has one digit more. -/
theorem lt_pow_length (n : Nat) : n < 10 ^ (decimalDigits n).length :=
  (Nat.length_toDigits_le_iff (by decide) (length_decimalDigits_pos n)).mp (Nat.le_refl _)

/-- A number other than zero is at least the power of ten with as many digits. -/
theorem pow_length_le {n : Nat} (hn : n ≠ 0) : 10 ^ ((decimalDigits n).length - 1) ≤ n := by
  rcases Nat.eq_zero_or_pos ((decimalDigits n).length - 1) with hzero | hpos
  · rw [hzero]
    exact Nat.pos_of_ne_zero hn
  · refine Nat.le_of_not_lt fun hlt => ?_
    have hshort := (Nat.length_toDigits_le_iff (by decide) hpos).mpr hlt
    have : (decimalDigits n).length ≤ (decimalDigits n).length - 1 := hshort
    omega

/-- The number of digits before the point, or minus the zeros behind it. -/
def size (d : Decimal) : Int :=
  (decimalDigits d.digits).length + d.exponent

/-- A decimal lies below the power of ten of its size. -/
theorem value_lt (d : Decimal) : d.value < 10 ^ d.size := by
  have hpow : (d.digits : ℚ) < 10 ^ (decimalDigits d.digits).length := by
    exact_mod_cast lt_pow_length d.digits
  rw [value, size, zpow_add₀ (by norm_num), zpow_natCast]
  exact mul_lt_mul_of_pos_right hpow (by positivity)

/-- A decimal other than zero has at least the power of ten before that. -/
theorem le_value (h : d.digits ≠ 0) : 10 ^ (d.size - 1) ≤ d.value := by
  have hlength := length_decimalDigits_pos d.digits
  have hpow : (10 : ℚ) ^ ((decimalDigits d.digits).length - 1) ≤ d.digits := by
    exact_mod_cast pow_length_le h
  have hsize : d.size - 1 = ((decimalDigits d.digits).length - 1 : ℕ) + d.exponent := by
    rw [size]
    omega
  rw [value, hsize, zpow_add₀ (by norm_num), zpow_natCast]
  exact mul_le_mul_of_nonneg_right hpow (by positivity)

theorem value_one (p : Int) : (⟨1, p⟩ : Decimal).value = 10 ^ p := by
  simp [value]

/-! ## The shortcuts -/

/-- The number of a rounded magnitude; infinite if that lies beyond the greatest. -/
def ofNearest : Option Magnitude → Binary64
  | some x => .finite false x
  | none => .infinite false

theorem ofNearest_injective {o o' : Option Magnitude} (h : ofNearest o = ofNearest o') : o = o' := by
  cases o <;> cases o' <;> simp_all [ofNearest]

/-- Zero at any place rounds to zero. -/
theorem nearest?_of_digits_eq_zero (h : d.digits = 0) : d.nearest? = some .zero := by
  refine nearest?_of_value .zero ?_
  have hunits : Magnitude.zero.units = 0 := Nat.zero_mul _
  rw [value, h, hunits, Nat.cast_zero, zero_mul, zero_div]

/-- A decimal below `10 ^ -400` is nearer to zero than to any other magnitude. -/
theorem nearest?_of_size_lt (h : d.size < -400) : d.nearest? = some .zero := by
  -- One decimal of the bound is computed, and rounding is monotone.
  have htiny : (⟨1, -400⟩ : Decimal).nearest? = some .zero := by decide +kernel
  have hvalue : d.value ≤ (⟨1, -400⟩ : Decimal).value := by
    rw [value_one]
    exact d.value_lt.le.trans (zpow_le_zpow_right₀ (by norm_num) h.le)
  have hplace := place_nearest?_mono hvalue
  rw [htiny] at hplace
  have hzero : place (some .zero) = 0 := Nat.zero_mul _
  exact place_injective (Nat.le_antisymm hplace (hzero ▸ Nat.zero_le _))

/-- The places of all outcomes lie below that of the first number that is too large. -/
theorem place_le (o : Option Magnitude) : place o ≤ 2 ^ 2098 := by
  cases o with
  | some x => exact Nat.le_of_lt x.units_lt
  | none => exact Nat.le_refl _

/-- A decimal from `10 ^ 400` on lies beyond every magnitude. -/
theorem nearest?_of_lt_size (hd : d.digits ≠ 0) (h : 400 < d.size) : d.nearest? = none := by
  have hhuge : (⟨1, 400⟩ : Decimal).nearest? = none := by decide +kernel
  have hvalue : (⟨1, 400⟩ : Decimal).value ≤ d.value := by
    rw [value_one]
    exact (zpow_le_zpow_right₀ (by norm_num) (by omega)).trans (le_value hd)
  have hplace := place_nearest?_mono hvalue
  rw [hhuge] at hplace
  exact place_injective (Nat.le_antisymm (place_le _) hplace)

/-- **A decimal is read to the number nearest to its value**, however long its exponent is. -/
theorem toBinary64_eq (d : Decimal) : d.toBinary64 false = ofNearest d.nearest? := by
  unfold toBinary64
  rw [← size]
  -- The shortcuts are taken in this order, and each of them gives what rounding would.
  by_cases hzero : d.digits = 0
  · rw [if_pos (by simp [hzero]), nearest?_of_digits_eq_zero hzero]
    rfl
  by_cases hsmall : d.size < -400
  · rw [if_pos (by simp [hsmall]), nearest?_of_size_lt hsmall]
    rfl
  by_cases hlarge : 400 < d.size
  · rw [if_neg (by simp [hzero, hsmall]), if_pos hlarge, nearest?_of_lt_size hzero hlarge]
    rfl
  · rw [if_neg (by simp [hzero, hsmall]), if_neg hlarge]
    rfl

end Decimal

end AccessRules.Number
