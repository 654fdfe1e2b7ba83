import AccessRules.Number.Decimal
import AccessRules.Rule.Evaluate
import AccessRules.Text.Blank

/-!
# Moments as text

A moment is written `2024-05-01T10:30:00`, perhaps with a fraction of a second behind a point.
Blanks may stand before every number and sign but the point and the `T`; a year with a sign may
have any number of digits. The sixty-first second of a minute is admitted.
-/

namespace AccessRules.CommandLine

open Number Rule

/-- A date and a time of day. -/
structure Moment where
  year : Int
  month : Nat
  day : Nat
  hour : Hour
  minute : Nat
  second : Nat
deriving DecidableEq, Repr

namespace Moment

/-- Drops blanks off the front. -/
def skipBlanks (cs : List Char) : List Char :=
  cs.dropWhile Text.isBlank

/-- Reads a number of one up to so many digits, before which blanks may stand. -/
def number? (most : Nat) (cs : List Char) : Option (Nat × List Char) :=
  let cs := skipBlanks cs
  let digits := (cs.take most).takeWhile isDigit
  if digits.isEmpty then none else some (ofDigits digits, cs.drop digits.length)

/-- Reads a year: up to four digits, or any number of them behind a sign. -/
def year? (cs : List Char) : Option (Int × List Char) :=
  let signed (negative : Bool) (cs : List Char) : Option (Int × List Char) :=
    let (digits, rest) := spanDigits cs
    if digits.isEmpty then none else some (Binary64.signed negative (ofDigits digits), rest)
  match skipBlanks cs with
  | '-' :: cs => signed true cs
  | '+' :: cs => signed false cs
  | cs => (number? 4 cs).map fun (n, rest) => (n, rest)

/-- Moves behind a sign. -/
def sign? (sign : Char) (cs : List Char) : Option (List Char) :=
  match cs with
  | c :: cs => if c = sign then some cs else none
  | [] => none

/-- Moves behind a fraction of a second, if there is one. -/
def fraction? (cs : List Char) : Option (List Char) :=
  match cs with
  | '.' :: cs =>
    let (digits, rest) := spanDigits cs
    if digits.isEmpty then none else some rest
  | cs => some cs

/-- Whether a year has a leap day. -/
def isLeap (year : Int) : Bool :=
  year % 4 = 0 && (year % 100 ≠ 0 || year % 400 = 0)

/-- The number of days in a month. -/
def daysIn (year : Int) (month : Nat) : Nat :=
  match month with
  | 2 => if isLeap year then 29 else 28
  | 4 | 6 | 9 | 11 => 30
  | _ => 31

/-- The moment with the given parts, if there is one. -/
def ofParts? (year : Int) (month day hour minute second : Nat) : Option Moment :=
  let dated := -262143 ≤ year && year ≤ 262142 && 1 ≤ month && month ≤ 12 && 1 ≤ day &&
    day ≤ daysIn year month
  if h : hour < 24 then
    if dated && minute < 60 && second ≤ 60 then
      some ⟨year, month, day, ⟨hour, h⟩, minute, second⟩
    else none
  else none

/-- Reads a moment. -/
def read? (text : String) : Option Moment := do
  let (year, cs) ← year? text.toList
  let cs ← sign? '-' (skipBlanks cs)
  let (month, cs) ← number? 2 cs
  let cs ← sign? '-' (skipBlanks cs)
  let (day, cs) ← number? 2 cs
  let cs ← sign? 'T' (skipBlanks cs)
  let (hour, cs) ← number? 2 cs
  let cs ← sign? ':' (skipBlanks cs)
  let (minute, cs) ← number? 2 cs
  let cs ← sign? ':' (skipBlanks cs)
  let (second, cs) ← number? 2 cs
  let cs ← fraction? cs
  if (skipBlanks cs).isEmpty then ofParts? year month day hour minute second else none

end Moment

end AccessRules.CommandLine
