import AccessRules.Number.Binary64

/-!
# Decimal texts of binary numbers

`Decimal.toBinary64` reads `digits · 10 ^ exponent` to the nearest number, and
`Magnitude.shortest` finds the decimal with the fewest digits that reads back to a magnitude; of
the decimals with that many digits it takes the nearest, and of two equally near ones the one
that the given rule says.
-/

namespace AccessRules.Number

/-- The number `digits · 10 ^ exponent`. -/
structure Decimal where
  digits : Nat
  exponent : Int
deriving DecidableEq, Repr

/-- The decimal digits of a natural number, the first one not zero unless it is the only one. -/
def decimalDigits (n : Nat) : List Char :=
  Nat.toDigits 10 n

/-- The number that a row of decimal digits stands for. -/
def ofDigits (cs : List Char) : Nat :=
  cs.foldl (fun n c => 10 * n + (c.toNat - '0'.toNat)) 0

/-- Whether a character is one of `0` to `9`. -/
def isDigit (c : Char) : Bool :=
  '0' ≤ c && c ≤ '9'

namespace Decimal

/-- The decimal as a fraction. -/
def fraction (d : Decimal) : Nat × Nat :=
  if 0 ≤ d.exponent then (d.digits * Nat.pow 10 d.exponent.toNat, 1)
  else (d.digits, Nat.pow 10 (-d.exponent).toNat)

/-- The number nearest to a signed decimal. A decimal of `10 ^ 400` or more is beyond every
finite number and one below `10 ^ -400` is nearer to zero than to any other, so such exponents
need no power of ten. -/
def toBinary64 (negative : Bool) (d : Decimal) : Binary64 :=
  let size := (decimalDigits d.digits).length + d.exponent
  if d.digits = 0 || size < -400 then .finite negative .zero
  else if 400 < size then .infinite negative
  else
    let (n, m) := d.fraction
    .ofFraction negative n m

/-- Moves the zeros at the end of the digits into the exponent. -/
def withoutTrailingZeros (d : Decimal) : Decimal :=
  let zeros := ((decimalDigits d.digits).reverse.takeWhile (· = '0')).length
  if d.digits = 0 then d else ⟨d.digits / Nat.pow 10 zeros, d.exponent + zeros⟩

end Decimal

namespace Magnitude

/-- The magnitude as a fraction. -/
def fraction (x : Magnitude) : Nat × Nat :=
  scaledFraction x.significand 1 x.exponent

/-- The magnitude in full: every binary fraction has finitely many decimal digits. -/
def exactDecimal (x : Magnitude) : Decimal :=
  if 0 ≤ x.exponent then ⟨x.significand * Nat.pow 2 x.exponent.toNat, 0⟩
  else ⟨x.significand * Nat.pow 5 (-x.exponent).toNat, x.exponent⟩

/-- The `p` with `10 ^ (p - 1) ≤ x < 10 ^ p`, for a positive `x`. -/
def decimalPoint (x : Magnitude) : Int :=
  let (n, d) := x.fraction
  if d ≤ n then ((decimalDigits (n / d)).length : Int)
  else 1 - (decimalDigits (d / n)).length

/-- Whether a decimal reads back to the magnitude. -/
def readsBack (x : Magnitude) (d : Decimal) : Bool :=
  d.toBinary64 false == .finite false x

/-- The multiple of `10 ^ exponent` nearest to the magnitude among its two neighbours, if one of
them reads back to it. -/
def onGrid? (tie : Tie) (x : Magnitude) (exponent : Int) : Option Decimal :=
  let (n, d) := x.fraction
  let (n, d) :=
    if 0 ≤ exponent then (n, d * Nat.pow 10 exponent.toNat)
    else (n * Nat.pow 10 (-exponent).toNat, d)
  let below : Decimal := ⟨n / d, exponent⟩
  let above : Decimal := ⟨n / d + 1, exponent⟩
  match x.readsBack below, x.readsBack above with
  | true, true => some ⟨roundedQuotient tie n d, exponent⟩
  | true, false => some below
  | false, true => some above
  | false, false => none

/-- The shortest decimal that reads back to the magnitude, without trailing zeros. Seventeen
digits always suffice; the exact decimal stands last so that reading back never hangs on it. -/
def shortest (tie : Tie) (x : Magnitude) : Decimal :=
  if x.significand = 0 then ⟨0, 0⟩
  else
    let point := x.decimalPoint
    let grids := (List.range 17).map fun (n : Nat) => point - (n + 1)
    ((grids.findSome? (x.onGrid? tie)).getD x.exactDecimal).withoutTrailingZeros

end Magnitude

/-- Reads a row of digits off the front of a text. -/
def spanDigits (cs : List Char) : List Char × List Char :=
  (cs.takeWhile isDigit, cs.dropWhile isDigit)

/-- The exponent part of a decimal text, which must be all that is left of it. -/
def readExponent? : List Char → Option Int
  | [] => some 0
  | c :: cs =>
    if c = 'e' || c = 'E' then
      let (negative, ds) := match cs with
        | '-' :: ds => (true, ds)
        | '+' :: ds => (false, ds)
        | ds => (false, ds)
      if !ds.isEmpty && ds.all isDigit then some (Binary64.signed negative (ofDigits ds)) else none
    else none

/-- Reads an unsigned decimal text: digits with or without a point, at least one of them, and
perhaps a power of ten. -/
def Decimal.read? (cs : List Char) : Option Decimal :=
  let (whole, rest) := spanDigits cs
  let (fractional, rest) := match rest with
    | '.' :: rest => spanDigits rest
    | rest => ([], rest)
  if whole.isEmpty && fractional.isEmpty then none
  else (readExponent? rest).map fun e => ⟨ofDigits (whole ++ fractional), e - fractional.length⟩

/-- Reads a signed decimal text, or one of the words `inf` and `NaN`. -/
def Binary64.read? (cs : List Char) : Option Binary64 :=
  let (negative, rest) := match cs with
    | '-' :: rest => (true, rest)
    | '+' :: rest => (false, rest)
    | rest => (false, rest)
  if rest = ['i', 'n', 'f'] then some (.infinite negative)
  else if rest = ['N', 'a', 'N'] then some .nan
  else (Decimal.read? rest).map (Decimal.toBinary64 negative)

end AccessRules.Number
