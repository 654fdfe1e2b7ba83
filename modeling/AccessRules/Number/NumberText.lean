import AccessRules.Number.Decimal

/-!
# The three written forms of a number

The same shortest digits are written in three ways: in rules, in messages and in JSON. The ways
differ in where scientific form begins, in whether a whole number keeps a fraction, in the sign
of the exponent and in the rule for digits that are equally near.
-/

namespace AccessRules.Number

/-- How a number is written. -/
structure NumberText where
  /-- Whether a power of ten `10 ^ e ≤ x < 10 ^ (e + 1)` is written without an exponent. -/
  positional : Int → Bool
  /-- Whether a whole number is written with `.0`. -/
  keepsFraction : Bool
  /-- Whether a positive exponent has a plus sign. -/
  signsExponent : Bool
  /-- Which of two equally near shortest decimals is written. -/
  tie : Tie

namespace NumberText

/-- The form of rule texts: positional from `0.0001` up to `10 ^ 16`, always with a fraction. -/
def rule : NumberText :=
  ⟨fun e => -4 ≤ e && e < 16, true, false, .up⟩

/-- The form of messages: always positional, whole numbers bare. -/
def message : NumberText :=
  ⟨fun _ => true, false, false, .up⟩

/-- The form of JSON texts: positional from `0.00001` up to `10 ^ 16`, with signed exponents. -/
def json : NumberText :=
  ⟨fun e => -5 ≤ e && e < 16, true, true, .even⟩

/-- Digits with a point before the last `-exponent` of them. -/
def positionalText (style : NumberText) (digits : List Char) (exponent : Int) : List Char :=
  let point := digits.length + exponent
  if 0 ≤ exponent then
    digits ++ List.replicate exponent.toNat '0' ++ (if style.keepsFraction then ['.', '0'] else [])
  else if 0 < point then
    digits.take point.toNat ++ '.' :: digits.drop point.toNat
  else
    '0' :: '.' :: List.replicate (-point).toNat '0' ++ digits

/-- Digits with a point after the first of them and a power of ten. -/
def scientificText (style : NumberText) (digits : List Char) (power : Int) : List Char :=
  let sign := if power < 0 then ['-'] else if style.signsExponent then ['+'] else []
  digits.take 1 ++ (if digits.length ≤ 1 then [] else '.' :: digits.drop 1) ++
    'e' :: sign ++ decimalDigits power.natAbs

/-- The text of a finite magnitude. -/
def magnitudeText (style : NumberText) (x : Magnitude) : List Char :=
  let d := x.shortest style.tie
  let digits := decimalDigits d.digits
  let power := digits.length + d.exponent - 1
  if x.significand = 0 || style.positional power then style.positionalText digits d.exponent
  else style.scientificText digits power

/-- The text of a number; the words of the values off the line are the same in every form. -/
def text (style : NumberText) : Binary64 → String
  | .nan => "NaN"
  | .infinite negative => if negative then "-inf" else "inf"
  | .finite negative x =>
    String.ofList ((if negative then ['-'] else []) ++ style.magnitudeText x)

end NumberText

end AccessRules.Number
