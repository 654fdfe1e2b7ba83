import AccessRules.Dict
import AccessRules.Json.Basic

/-!
# Reading JSON texts

A text is read in two steps. `Document.read?` accepts a text by its shape alone. `Document.toJson?`
then gives the value, and fails where a well-formed text has none: a number beyond the greatest
finite one, a string with half of a surrogate pair, or nesting deeper than 127. Whoever reads a
record and skips the members it does not know asks for the value of the known ones only, so what
stands in a skipped member needs no value.

A number without fraction and exponent is a whole number if it fits 64 bits. Any other number is
read from its first digits, as many as fit 64 bits, rounded to a floating-point number, and then
multiplied or divided once by a rounded power of ten.
-/

namespace AccessRules

namespace Json

/-- One character of a string text: itself, or an escape `\uXXXX` with its 16-bit unit. -/
inductive StringPart
  | char (c : Char)
  | unit (n : Nat)

/-- A JSON text that is known by its shape. A number or a string holds its value if it has one. -/
inductive Document
  | null
  | bool (b : Bool)
  | number (value : Option Json)
  | string (value : Option String)
  | array (items : List Document)
  | object (members : List (Option String × Document))

/-- The string of some parts; two units of a surrogate pair are one character, and half a pair
is none. -/
def StringPart.join : List StringPart → Option (List Char)
  | [] => some []
  | .char c :: parts => (join parts).map (c :: ·)
  | .unit high :: .unit low :: parts =>
    if 0xD800 ≤ high && high < 0xDC00 then
      if 0xDC00 ≤ low && low < 0xE000 then
        (join parts).map (Char.ofNat (0x10000 + (high - 0xD800) * 0x400 + (low - 0xDC00)) :: ·)
      else none
    else if 0xDC00 ≤ high && high < 0xE000 then none
    else (join (.unit low :: parts)).map (Char.ofNat high :: ·)
  | .unit n :: parts =>
    if 0xD800 ≤ n && n < 0xE000 then none else (join parts).map (Char.ofNat n :: ·)

/-- The value of a hexadecimal digit of either case. -/
def hexValue? (c : Char) : Option Nat :=
  if '0' ≤ c && c ≤ '9' then some (c.toNat - '0'.toNat)
  else if 'a' ≤ c && c ≤ 'f' then some (c.toNat - 'a'.toNat + 10)
  else if 'A' ≤ c && c ≤ 'F' then some (c.toNat - 'A'.toNat + 10)
  else none

/-- The character that a one-letter escape stands for. -/
def escape? (c : Char) : Option Char :=
  if c = '"' then some '"'
  else if c = '\\' then some '\\'
  else if c = '/' then some '/'
  else if c = 'b' then some (Char.ofNat 0x08)
  else if c = 'f' then some (Char.ofNat 0x0C)
  else if c = 'n' then some '\n'
  else if c = 'r' then some '\r'
  else if c = 't' then some '\t'
  else none

/-- Reads a string from behind its opening quote to behind its closing one. -/
def readParts (parts : List StringPart) : List Char → Option (List StringPart × List Char)
  | [] => none
  | '"' :: cs => some (parts.reverse, cs)
  | '\\' :: 'u' :: a :: b :: c :: d :: cs =>
    match hexValue? a, hexValue? b, hexValue? c, hexValue? d with
    | some a, some b, some c, some d =>
      readParts (.unit (0x1000 * a + 0x100 * b + 0x10 * c + d) :: parts) cs
    | _, _, _, _ => none
  | '\\' :: c :: cs =>
    match escape? c with
    | some e => readParts (.char e :: parts) cs
    | none => none
  | c :: cs => if c.toNat < 0x20 || c = '\\' then none else readParts (.char c :: parts) cs

/-- Reads a string from behind its opening quote; the value is none if it holds half a pair. -/
def readString (cs : List Char) : Option (Option String × List Char) :=
  (readParts [] cs).map fun (parts, rest) => ((StringPart.join parts).map String.ofList, rest)

/-- The parts of a number text. -/
structure NumberParts where
  negative : Bool
  whole : List Char
  /-- The digits behind the point, if there is one. -/
  fractional : Option (List Char)
  /-- The sign and the digits of the exponent, if there is one. -/
  exponent : Option (Bool × List Char)

/-- Reads the exponent of a number, if there is one. -/
def readExponent : List Char → Option (Option (Bool × List Char) × List Char)
  | [] => some (none, [])
  | c :: cs =>
    if c = 'e' || c = 'E' then
      let (negative, ds) := match cs with
        | '-' :: ds => (true, ds)
        | '+' :: ds => (false, ds)
        | ds => (false, ds)
      let (digits, rest) := Number.spanDigits ds
      if digits.isEmpty then none else some (some (negative, digits), rest)
    else some (none, c :: cs)

/-- Reads a number: a sign, digits without a needless zero in front, and perhaps a fraction and an
exponent. -/
def readNumber (cs : List Char) : Option (NumberParts × List Char) :=
  let (negative, ds) := match cs with
    | '-' :: ds => (true, ds)
    | ds => (false, ds)
  let (whole, rest) := Number.spanDigits ds
  if whole.isEmpty || (whole.head? = some '0' && 1 < whole.length) then none
  else match rest with
    | '.' :: ds =>
      let (fractional, rest) := Number.spanDigits ds
      if fractional.isEmpty then none
      else (readExponent rest).map fun (e, rest) =>
        (⟨negative, whole, some fractional, e⟩, rest)
    | rest => (readExponent rest).map fun (e, rest) => (⟨negative, whole, none, e⟩, rest)

/-- The greatest number that fits 64 bits. -/
def maxWord : Nat := Nat.pow 2 64 - 1

/-- Takes digits as long as the number fits 64 bits, and counts those taken. -/
def leadingDigits (n : Nat) (taken : Nat) : List Char → Nat × Nat
  | [] => (n, taken)
  | c :: cs =>
    let next := 10 * n + (c.toNat - '0'.toNat)
    if maxWord < next then (n, taken) else leadingDigits next (taken + 1) cs

/-- A rounded power of ten. -/
def powerOfTen (n : Nat) : Option Number.Magnitude :=
  Number.Magnitude.ofFraction? (Nat.pow 10 n) 1

/-- The power of ten that is the greatest one below the greatest finite number. -/
def greatestPower : Nat := 308

/-- Divides by a number a number of times; once zero is reached it stays. -/
def dividedRepeatedly (divisor x : Number.Magnitude) : Nat → Option Number.Magnitude
  | 0 => some x
  | count + 1 =>
    if x.significand = 0 then some x
    else match x.over? divisor with
      | some y => dividedRepeatedly divisor y count
      | none => none

/-- Divides by `10 ^ n`, by the greatest power of ten at a time as long as more remains. -/
def dividedByPower (x : Number.Magnitude) (n : Nat) : Option Number.Magnitude :=
  let count := (n - 1) / greatestPower
  (powerOfTen greatestPower).bind fun greatest =>
    (dividedRepeatedly greatest x count).bind fun y =>
      (powerOfTen (n - greatestPower * count)).bind y.over?

/-- `significand · 10 ^ exponent` with one rounding for each of the significand, the power and
their product or quotient; none beyond the greatest finite number. -/
def scaledByPower (significand : Nat) (exponent : Int) : Option Number.Magnitude :=
  match Number.Magnitude.ofFraction? significand 1 with
  | none => none
  | some x =>
    if 0 ≤ exponent then
      if exponent ≤ greatestPower then (powerOfTen exponent.toNat).bind x.times?
      else if x.significand = 0 then some x
      else none
    else dividedByPower x (-exponent).toNat

/-- The floating-point value of a number. The exponent counts up to `2 ^ 31 - 1`; a longer one
gives zero, or none if it is positive and the digits are not all zero. -/
def NumberParts.toFloat? (p : NumberParts) : Option Json :=
  let fractional := p.fractional.getD []
  let (wholeValue, wholeTaken) := leadingDigits 0 0 p.whole
  let (significand, fractionTaken) := leadingDigits wholeValue 0 fractional
  let shift : Int := ((p.whole.length - wholeTaken : Nat) : Int) - fractionTaken
  let finish (exponent : Int) : Option Json :=
    (scaledByPower significand exponent).map fun x => .float (.finite p.negative x)
  match p.exponent with
  | none => finish shift
  | some (negative, digits) =>
    let exponent := Number.ofDigits digits
    if Nat.pow 2 31 - 1 < exponent then
      if significand ≠ 0 && !negative then none else some (.float (.finite p.negative .zero))
    else finish (shift + Number.Binary64.signed negative exponent)

/-- The value of a number. -/
def NumberParts.toJson? (p : NumberParts) : Option Json :=
  let n := Number.ofDigits p.whole
  if p.fractional.isNone && p.exponent.isNone && n ≤ maxWord then
    if !p.negative then some (.int n)
    else if n = 0 then some (.float (.finite true .zero))
    else if n ≤ Nat.pow 2 63 then some (.int (-n))
    else some (.float (.ofFraction true n 1))
  else p.toFloat?

/-- Drops the white space of JSON off the front. -/
def skipSpace (cs : List Char) : List Char :=
  cs.dropWhile fun c => c = ' ' || c = '\n' || c = '\t' || c = '\r'

mutual

/-- Reads a value, which may have white space in front. -/
def readValue : Nat → List Char → Option (Document × List Char)
  | 0, _ => none
  | fuel + 1, cs =>
    match skipSpace cs with
    | '"' :: cs => (readString cs).map fun (s, rest) => (.string s, rest)
    | '[' :: cs =>
      match skipSpace cs with
      | ']' :: rest => some (.array [], rest)
      | _ => (readItems fuel [] cs).map fun (items, rest) => (.array items, rest)
    | '\x7b' :: cs =>
      match skipSpace cs with
      | '\x7d' :: rest => some (.object [], rest)
      | _ => (readMembers fuel [] cs).map fun (members, rest) => (.object members, rest)
    | 'n' :: 'u' :: 'l' :: 'l' :: rest => some (.null, rest)
    | 't' :: 'r' :: 'u' :: 'e' :: rest => some (.bool true, rest)
    | 'f' :: 'a' :: 'l' :: 's' :: 'e' :: rest => some (.bool false, rest)
    | cs => (readNumber cs).map fun (parts, rest) => (.number parts.toJson?, rest)

/-- Reads the items of an array up to behind its closing bracket. -/
def readItems : Nat → List Document → List Char → Option (List Document × List Char)
  | 0, _, _ => none
  | fuel + 1, items, cs =>
    match readValue fuel cs with
    | none => none
    | some (item, rest) =>
      match skipSpace rest with
      | ',' :: rest => readItems fuel (item :: items) rest
      | ']' :: rest => some ((item :: items).reverse, rest)
      | _ => none

/-- Reads the members of an object up to behind its closing brace. -/
def readMembers : Nat → List (Option String × Document) → List Char →
    Option (List (Option String × Document) × List Char)
  | 0, _, _ => none
  | fuel + 1, members, cs =>
    match skipSpace cs with
    | '"' :: cs =>
      match readString cs with
      | none => none
      | some (key, rest) =>
        match skipSpace rest with
        | ':' :: rest =>
          match readValue fuel rest with
          | none => none
          | some (item, rest) =>
            match skipSpace rest with
            | ',' :: rest => readMembers fuel ((key, item) :: members) rest
            | '\x7d' :: rest => some (((key, item) :: members).reverse, rest)
            | _ => none
        | _ => none
    | _ => none

end

/-- Reads a whole text. Every value and every item takes at least one character, so twice the
length bounds the calls. -/
def Document.read? (text : String) : Option Document :=
  let cs := text.toList
  match readValue (2 * cs.length + 2) cs with
  | some (document, rest) => if (skipSpace rest).isEmpty then some document else none
  | none => none

/-- How many arrays and objects may stand inside each other. -/
def maxNesting : Nat := 127

mutual

/-- The value of a document that may nest so many levels, with the members of an object in their
order. -/
def Document.toJson? (levels : Nat) : Document → Option Json
  | .null => some .null
  | .bool b => some (.bool b)
  | .number value => value
  | .string value => value.map .string
  | .array items =>
    match levels with
    | 0 => none
    | levels + 1 => (itemsToJson? levels items).map .array
  | .object members =>
    match levels with
    | 0 => none
    | levels + 1 => (membersToJson? levels members).map .object

/-- The values of the items. -/
def itemsToJson? (levels : Nat) : List Document → Option (List Json)
  | [] => some []
  | item :: items =>
    match item.toJson? levels, itemsToJson? levels items with
    | some item, some items => some (item :: items)
    | _, _ => none

/-- The values of the members. -/
def membersToJson? (levels : Nat) : List (Option String × Document) →
    Option (List (String × Json))
  | [] => some []
  | (key, item) :: members =>
    match key, item.toJson? levels, membersToJson? levels members with
    | some key, some item, some members => some ((key, item) :: members)
    | _, _, _ => none

end

mutual

/-- How many arrays and objects stand inside each other in a value. -/
def depth : Json → Nat
  | .array items => itemsDepth items + 1
  | .object members => membersDepth members + 1
  | _ => 0

/-- The greatest depth of some items. -/
def itemsDepth : List Json → Nat
  | [] => 0
  | item :: items => max (depth item) (itemsDepth items)

/-- The greatest depth of some members. -/
def membersDepth : List (String × Json) → Nat
  | [] => 0
  | (_, item) :: members => max (depth item) (membersDepth members)

end

mutual

/-- The document of a value. -/
def toDocument : Json → Document
  | .null => .null
  | .bool b => .bool b
  | .int i => .number (some (.int i))
  | .float x => .number (some (.float x))
  | .string s => .string (some s)
  | .array items => .array (itemDocuments items)
  | .object members => .object (memberDocuments members)

/-- The documents of some items. -/
def itemDocuments : List Json → List Document
  | [] => []
  | item :: items => toDocument item :: itemDocuments items

/-- The documents of some members. -/
def memberDocuments : List (String × Json) → List (Option String × Document)
  | [] => []
  | (key, item) :: members => (some key, toDocument item) :: memberDocuments members

end

mutual

/-- Puts the members of every object in key order; of two with the same key the later one
counts. -/
def inKeyOrder : Json → Json
  | .array items => .array (itemsInKeyOrder items)
  | .object members => .object (Dict.ofList (membersInKeyOrder members))
  | scalar => scalar

/-- Puts the items of an array in key order. -/
def itemsInKeyOrder : List Json → List Json
  | [] => []
  | item :: items => inKeyOrder item :: itemsInKeyOrder items

/-- Puts the values of members in key order. -/
def membersInKeyOrder : List (String × Json) → List (String × Json)
  | [] => []
  | (key, item) :: members => (key, inKeyOrder item) :: membersInKeyOrder members

end

/-- The value that a text stands for: it must be well formed, and every part of it must have a
value. -/
def read? (text : String) : Option Json :=
  ((Document.read? text).bind (Document.toJson? maxNesting)).map inKeyOrder

end Json

end AccessRules
