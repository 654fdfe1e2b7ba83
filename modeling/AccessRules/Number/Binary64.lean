/-!
# Binary floating-point numbers

The non-integral numbers of rules and data are IEEE 754 `binary64` values. A finite one is a sign
and a magnitude `significand · 2 ^ exponent` in the one form that the format has for it, so equal
structure is equal bits, and every operation is exact arithmetic on natural numbers followed by
one rounding to nearest, ties to even.

Every finite value is a whole multiple of `2 ^ -1074`. `scaled` gives that multiple and puts the
infinities at `± 2 ^ 1024`, just above all others; comparing two numbers is comparing the
integers, and NaN has none.
-/

namespace AccessRules.Number

/-- Which of two equally near neighbours a rounding takes. -/
inductive Tie
  | even
  | up
deriving DecidableEq, Repr

/-- The whole number nearest to `numerator / denominator`. -/
def roundedQuotient (tie : Tie) (numerator denominator : Nat) : Nat :=
  let quotient := numerator / denominator
  let twice := 2 * (numerator % denominator)
  if twice < denominator then quotient
  else if denominator < twice then quotient + 1
  else match tie with
    | .up => quotient + 1
    | .even => if quotient % 2 = 0 then quotient else quotient + 1

/-- The forms that the format has: 53 significant bits, of which the first is set unless the
exponent is the least. -/
def Canonical (significand : Nat) (exponent : Int) : Prop :=
  significand < Nat.pow 2 53 ∧ -1074 ≤ exponent ∧ exponent ≤ 971 ∧
    (Nat.pow 2 52 ≤ significand ∨ exponent = -1074)

instance (significand : Nat) (exponent : Int) : Decidable (Canonical significand exponent) :=
  inferInstanceAs (Decidable (_ ∧ _ ∧ _ ∧ (_ ∨ _)))

/-- A finite magnitude `significand · 2 ^ exponent`. -/
structure Magnitude where
  significand : Nat
  exponent : Int
  canonical : Canonical significand exponent
deriving DecidableEq

namespace Magnitude

/-- The magnitude with the given parts, if the format has it. -/
def ofParts? (significand : Nat) (exponent : Int) : Option Magnitude :=
  if h : Canonical significand exponent then some ⟨significand, exponent, h⟩ else none

/-- The magnitude zero. -/
def zero : Magnitude := ⟨0, -1074, by decide⟩

/-- The value as a multiple of `2 ^ -1074`. -/
def units (x : Magnitude) : Nat :=
  x.significand * Nat.pow 2 (x.exponent + 1074).toNat

/-- The fraction `numerator / denominator · 2 ^ exponent` with a whole numerator and
denominator. -/
def scaledFraction (numerator denominator : Nat) (exponent : Int) : Nat × Nat :=
  if 0 ≤ exponent then (numerator * Nat.pow 2 exponent.toNat, denominator)
  else (numerator, denominator * Nat.pow 2 (-exponent).toNat)

/-- The exponent at which a positive fraction has 53 significant bits, or the least one. -/
def exponentOf (numerator denominator : Nat) : Int :=
  let guess := max ((numerator.log2 : Int) - denominator.log2 - 53) (-1074)
  let (n, d) := scaledFraction numerator denominator (-guess)
  if n / d < Nat.pow 2 53 then guess else guess + 1

/-- The magnitude nearest to a fraction; none if that lies beyond the greatest. -/
def ofFraction? (numerator denominator : Nat) : Option Magnitude :=
  if numerator = 0 then some zero
  else
    let exponent := exponentOf numerator denominator
    let (n, d) := scaledFraction numerator denominator (-exponent)
    let significand := roundedQuotient .even n d
    if significand = Nat.pow 2 53 then ofParts? (Nat.pow 2 52) (exponent + 1)
    else ofParts? significand exponent

/-- The rounded product; none if it lies beyond the greatest magnitude. -/
def times? (x y : Magnitude) : Option Magnitude :=
  let (n, d) := scaledFraction (x.significand * y.significand) 1 (x.exponent + y.exponent)
  ofFraction? n d

/-- The rounded quotient by a positive magnitude; none if it lies beyond the greatest. -/
def over? (x y : Magnitude) : Option Magnitude :=
  let (n, d) := scaledFraction x.significand y.significand (x.exponent - y.exponent)
  ofFraction? n d

end Magnitude

/-- A `binary64` value. -/
inductive Binary64
  | nan
  | infinite (negative : Bool)
  | finite (negative : Bool) (magnitude : Magnitude)
deriving DecidableEq

namespace Binary64

/-- The value nearest to a signed fraction; beyond the greatest finite value it is infinite. -/
def ofFraction (negative : Bool) (numerator denominator : Nat) : Binary64 :=
  match Magnitude.ofFraction? numerator denominator with
  | some x => .finite negative x
  | none => .infinite negative

/-- The value nearest to an integer. -/
def ofInt (i : Int) : Binary64 :=
  ofFraction (i < 0) i.natAbs 1

/-- An integer with a sign. -/
def signed (negative : Bool) (n : Nat) : Int :=
  if negative then -(n : Int) else n

/-- The place of a number on the line, in multiples of `2 ^ -1074`. -/
def scaled : Binary64 → Option Int
  | .nan => none
  | .infinite negative => some (signed negative (Nat.pow 2 2098))
  | .finite negative x => some (signed negative x.units)

/-- The numeric order; NaN is comparable with nothing, and the two zeros are equal. -/
def compare? (x y : Binary64) : Option Ordering :=
  match x.scaled, y.scaled with
  | some a, some b => some (compare a b)
  | _, _ => none

/-- Numeric equality; NaN equals nothing, and the two zeros are equal. -/
def same (x y : Binary64) : Bool :=
  x.compare? y == some .eq

/-- Whether the value is one of the zeros. -/
def isZero (x : Binary64) : Bool :=
  x.scaled == some 0

/-- Whether the value is a number on the line. -/
def isFinite : Binary64 → Bool
  | .finite .. => true
  | _ => false

end Binary64

end AccessRules.Number
