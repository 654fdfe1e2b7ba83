import AccessRules.Number.Decimal
import AccessRules.Yaml.Document

/-!
# What a YAML node means

A quoted scalar is a text. A plain one is null, a truth value or a number if it is written like
one, and else a text; a tag of the core schema settles which. A node with a tag of its own means
nothing here, nor does a whole number that needs more than 64 and at most 128 bits.
-/

namespace AccessRules.Yaml

open Number

/-- A node as data. -/
inductive Data
  | null
  | bool (b : Bool)
  /-- A whole number without a minus sign. -/
  | natural (n : Nat)
  /-- A whole number with a minus sign, by its magnitude. -/
  | negative (n : Nat)
  | float (x : Binary64)
  | string (s : String)
  | list (items : List Data)
  | map (entries : List (Data × Data))
deriving Inhabited

/-- The words for null. -/
def isNullWord (text : String) : Bool :=
  text = "null" || text = "Null" || text = "NULL" || text = "~"

/-- The truth value of a word. -/
def boolWord? (text : String) : Option Bool :=
  match text with
  | "true" | "True" | "TRUE" => some true
  | "false" | "False" | "FALSE" => some false
  | _ => none

/-- The number that digits to a base stand for; there must be at least one. -/
def digitsToBase? (base : Nat) (cs : List Char) : Option Nat :=
  if cs.isEmpty then none
  else cs.foldlM (fun n c =>
    match hexValue? c with
    | some v => if v < base then some (base * n + v) else none
    | none => none) 0

/-- The base that a number starts with, and its digits. -/
def basedDigits : List Char → Nat × List Char
  | '0' :: 'x' :: cs => (16, cs)
  | '0' :: 'o' :: cs => (8, cs)
  | '0' :: 'b' :: cs => (2, cs)
  | cs => (10, cs)

/-- Whether decimal digits start with a zero that has no place there. -/
def hasLeadingZero (cs : List Char) : Bool :=
  1 < cs.length && cs.head? = some '0' && cs.all isDigit

/-- The whole number that digits without a sign stand for. -/
def unsigned? (cs : List Char) : Option Nat :=
  if hasLeadingZero cs then none
  else
    let (base, digits) := basedDigits cs
    digitsToBase? base digits

/-- A whole number of limited size: it has a meaning if it fits a word, none if it needs up to two
words, and is no whole number beyond. -/
def sized (n word doubleWord : Nat) (meaning : Data) : Option (Option Data) :=
  if n < word then some (some meaning)
  else if n < doubleWord then some none
  else none

/-- Reads a whole number; the inner option is its meaning. -/
def integer? (text : String) : Option (Option Data) :=
  match text.toList with
  | '-' :: cs =>
    (unsigned? cs).bind fun n => sized n (Nat.pow 2 63 + 1) (Nat.pow 2 127 + 1) (.negative n)
  | cs =>
    let digits := match cs with
      | '+' :: digits => digits
      | digits => digits
    (unsigned? digits).bind fun n => sized n (Nat.pow 2 64) (Nat.pow 2 128) (.natural n)

/-- Reads a floating-point number: decimal text of finite value, or a word for a value off the
line. -/
def float? (text : String) : Option Binary64 :=
  if text = ".inf" || text = ".Inf" || text = ".INF" ||
      text = "+.inf" || text = "+.Inf" || text = "+.INF" then some (.infinite false)
  else if text = "-.inf" || text = "-.Inf" || text = "-.INF" then some (.infinite true)
  else if text = ".nan" || text = ".NaN" || text = ".NAN" then some .nan
  else (Binary64.read? text.toList).filter Binary64.isFinite

/-- Whether a text is a row of digits that is kept as text, with a sign or not. -/
def isDigitText (text : String) : Bool :=
  match text.toList with
  | '-' :: cs => hasLeadingZero cs
  | '+' :: cs => hasLeadingZero cs
  | cs => hasLeadingZero cs

/-- The meaning of a plain scalar. -/
def plainMeaning? (text : String) : Option Data :=
  if text = "" || isNullWord text then some .null
  else match boolWord? text with
    | some b => some (.bool b)
    | none =>
      match integer? text with
      | some meaning => meaning
      | none =>
        match if isDigitText text then none else float? text with
        | some x => some (.float x)
        | none => some (.string text)

/-- How the tags of the core schema start. -/
def coreTag (name : String) : String := String.join ["tag:yaml.org,2002:", name]

/-- Whether a tag is neither of the core schema nor a full name. -/
def isLocalTag (tag : Option String) : Bool :=
  tag.any fun t => t.toList.head? = some '!'

/-- The meaning of a scalar. -/
def scalarMeaning? (tag : Option String) (style : ScalarStyle) (text : String) : Option Data :=
  match tag with
  | none => if style = .plain then plainMeaning? text else some (.string text)
  | some t =>
    if isLocalTag tag then none
    else if t = coreTag "bool" then (boolWord? text).map .bool
    else if t = coreTag "int" then (integer? text).join
    else if t = coreTag "float" then (float? text).map .float
    else if t = coreTag "null" then if isNullWord text then some .null else none
    else some (.string text)

/-- The meaning of a node in which at most so many sequences and mappings stand inside each
other. -/
def Data.ofNode? (d : Document) : Nat → Node → Option Data
  | 0, node =>
    match d.follow node with
    | .scalar tag style text => scalarMeaning? tag style text
    | _ => none
  | levels + 1, node =>
    match d.follow node with
    | .scalar tag style text => scalarMeaning? tag style text
    | .sequence tag items =>
      if isLocalTag tag then none else (items.mapM (ofNode? d levels)).map .list
    | .mapping tag entries =>
      if isLocalTag tag then none
      else (entries.mapM fun (key, value) =>
        match ofNode? d levels key, ofNode? d levels value with
        | some key, some value => some (key, value)
        | _, _ => none).map .map
    | .reference _ => none

/-- How many sequences and mappings may stand inside each other. -/
def maxNesting : Nat := 128

end AccessRules.Yaml
