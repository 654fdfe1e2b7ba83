import AccessRules.Yaml.ScalarText
import AccessRules.Yaml.Token

/-!
# Anchors, tags and directives

The small tokens of a text that are names: an anchor `&name` and a reference `*name` to it, a tag
`!name`, `!handle!name` or `!<name>`, and a line that starts with `%`. Each reader starts behind
the sign and gives the token and the place behind it.
-/

namespace AccessRules.Yaml

/-- A token and the place behind it. -/
abbrev Found := Option (Token × Cursor)

/-- Reads the name of an anchor, which a blank or one of a few signs must follow. -/
def anchorName (c : Cursor) : Option (String × Cursor) :=
  let name := c.rest.takeWhile isWord
  let c := c.skip name.length
  let ended := atBlank c.rest || (c.rest.head?.map "?:,]\x7d%@\x60".toList.contains).getD false
  if name.isEmpty || !ended then none else some (String.ofList name, c)

/-- Whether a character may stand in the name of a tag; between pointed brackets some more may. -/
def isTagChar (bracketed : Bool) (c : Char) : Bool :=
  isWord c || ";/?:@&=+$.%!~*'()".toList.contains c || (bracketed && ",[]".toList.contains c)

/-- The number of octets of the character that an octet starts. -/
def octetsFrom? (octet : Nat) : Option Nat :=
  if octet < 0x80 then some 1
  else if 0xC0 ≤ octet && octet < 0xE0 then some 2
  else if 0xE0 ≤ octet && octet < 0xF0 then some 3
  else if 0xF0 ≤ octet && octet < 0xF8 then some 4
  else none

/-- The number that two hexadecimal digits behind a percent sign stand for. -/
def escapedOctet? : List Char → Option (Nat × List Char)
  | '%' :: a :: b :: rest =>
    match hexValue? a, hexValue? b with
    | some a, some b => some (16 * a + b, rest)
    | _, _ => none
  | _ => none

/-- Adds octets that go on with a character to the bits that it has so far. -/
def escapedRest? (bits : Nat) : Nat → List Char → Option Nat
  | 0, _ => some bits
  | more + 1, cs =>
    match escapedOctet? cs with
    | some (octet, cs) =>
      if 0x80 ≤ octet && octet < 0xC0 then escapedRest? (64 * bits + (octet - 0x80)) more cs
      else none
    | none => none

/-- Reads a character that is written as octets, each as a percent sign and two digits, and gives
the number of octets. -/
def escapedChar? (cs : List Char) : Option (Char × Nat) :=
  match escapedOctet? cs with
  | none => none
  | some (octet, rest) =>
    match octetsFrom? octet with
    | none => none
    | some 1 => some (Char.ofNat octet, 1)
    | some n =>
      match escapedRest? (octet % Nat.pow 2 (7 - n)) (n - 1) rest with
      | some code => if code.isValidChar then some (Char.ofNat code, n) else none
      | none => none

/-- Reads the characters of a tag's name. -/
def tagText (bracketed : Bool) : Nat → List Char → Cursor → Option (List Char × Cursor)
  | 0, text, c => some (text, c)
  | steps + 1, text, c =>
    match c.rest with
    | [] => some (text, c)
    | ch :: _ =>
      if !isTagChar bracketed ch then some (text, c)
      else if ch = '%' then
        match escapedChar? c.rest with
        | some (ch, octets) => tagText bracketed steps (text ++ [ch]) (c.skip (3 * octets))
        | none => none
      else tagText bracketed steps (text ++ [ch]) (c.skip 1)

/-- Reads the rest of a tag's name behind the start `text`; neither may be empty together. -/
def tagName (bracketed : Bool) (text : List Char) (c : Cursor) : Option (String × Cursor) :=
  match tagText bracketed c.bound text c with
  | some (text, c) => some (String.ofList text, c)
  | none => none

/-- The parts of a tag from behind its sign: in brackets, behind a handle that another sign ends,
or behind the sign alone, which stands for itself if no name follows. -/
def tagParts (c : Cursor) : Option ((String × String) × Cursor) :=
  if c.peek? = some '<' then
    match tagName true [] (c.skip 1) with
    | some (name, c) =>
      if name.isEmpty || c.peek? ≠ some '>' then none else some (("", name), c.skip 1)
    | none => none
  else
    let word := c.rest.takeWhile isWord
    let behind := c.skip word.length
    if behind.peek? = some '!' then
      match tagName false [] (behind.skip 1) with
      | some (name, c) =>
        if name.isEmpty then none else some (("!" ++ String.ofList word ++ "!", name), c)
      | none => none
    else
      match tagName false word behind with
      | some (name, c) => some (if name.isEmpty then ("", "!") else ("!", name), c)
      | none => none

/-- Reads a tag, which a blank or, within a flow collection, a comma must follow. -/
def tagToken (flow : Bool) (c : Cursor) : Found :=
  match tagParts c with
  | none => none
  | some ((handle, ending), c) =>
    if atBlank c.rest || (flow && c.peek? = some ',') then some (.tag handle ending, c) else none

/-- Reads a number of at most nine digits. -/
def versionNumber (c : Cursor) : Option (Nat × Cursor) :=
  let digits := c.rest.takeWhile fun ch => '0' ≤ ch && ch ≤ '9'
  if digits.isEmpty || 9 < digits.length then none
  else some (digits.foldl (fun n d => 10 * n + (d.toNat - '0'.toNat)) 0, c.skip digits.length)

/-- Reads a version: two numbers with a point between them. -/
def versionToken (c : Cursor) : Found :=
  match versionNumber c.skipSpaces with
  | none => none
  | some (major, c) =>
    if c.peek? ≠ some '.' then none
    else match versionNumber (c.skip 1) with
      | none => none
      | some (minor, c) => some (.versionDirective major minor, c)

/-- Reads the declaration of a tag handle: the handle and the start of the names behind it. -/
def tagDirectiveToken (c : Cursor) : Found :=
  let c := c.skipSpaces
  if c.peek? ≠ some '!' then none
  else
    let word := (c.skip 1).rest.takeWhile isWord
    let c := c.skip (1 + word.length)
    let ended := c.peek? = some '!'
    if !ended && !word.isEmpty then none
    else
      let handle := "!" ++ String.ofList word ++ (if ended then "!" else "")
      let c := if ended then c.skip 1 else c
      if (c.peek?.map isSpace).getD false then
        match tagName true [] c.skipSpaces with
        | some (start, c) =>
          if start.isEmpty || !atBlank c.rest then none else some (.tagDirective handle start, c)
        | none => none
      else none

/-- Reads a directive with the rest of its line, from behind its sign. -/
def directiveToken (c : Cursor) : Found :=
  let name := c.rest.takeWhile isWord
  let behind := c.skip name.length
  if name.isEmpty || !atBlank behind.rest then none
  else
    let found :=
      if String.ofList name = "YAML" then versionToken behind
      else if String.ofList name = "TAG" then tagDirectiveToken behind
      else none
    match found with
    | none => none
    | some (token, c) => c.skipComment?.map fun c => (token, c)

end AccessRules.Yaml
