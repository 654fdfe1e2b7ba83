/-!
# Places in a YAML text

A cursor is a place in a text: what is left of it, and how far it is from the start, in characters,
in lines, and in characters of its line. Several characters and pairs of characters end a line;
`takeBlanks` and `foldBlanks` read the space between two words of a scalar.
-/

namespace AccessRules.Yaml

/-- The characters that a text may consist of: no controls but tab and line ends, and no
non-characters. -/
def isReadable (c : Char) : Bool :=
  let n := c.toNat
  n = 0x09 || n = 0x0A || n = 0x0D || (0x20 ≤ n && n ≤ 0x7E) || n = 0x85 ||
    (0xA0 ≤ n && n ≤ 0xD7FF) || (0xE000 ≤ n && n ≤ 0xFFFD) || (0x10000 ≤ n && n ≤ 0x10FFFF)

/-- Whether a character ends a line. -/
def isBreak (c : Char) : Bool :=
  c = '\n' || c = '\r' || c.toNat = 0x85 || c.toNat = 0x2028 || c.toNat = 0x2029

/-- Whether a character is a space or a tab. -/
def isSpace (c : Char) : Bool :=
  c = ' ' || c = '\t'

/-- Whether a text is at its end or at the end of a line. -/
def atBreak : List Char → Bool
  | [] => true
  | c :: _ => isBreak c

/-- Whether a text is at its end, at the end of a line or at a space. -/
def atBlank : List Char → Bool
  | [] => true
  | c :: _ => isSpace c || isBreak c

/-- Whether a character may stand in the name of an anchor or of a directive. -/
def isWord (c : Char) : Bool :=
  c.isAlphanum || c = '_' || c = '-'

/-- A place in a text. -/
structure Cursor where
  rest : List Char
  index : Nat
  line : Nat
  column : Nat
  /-- More than the number of characters of the whole text. No reader makes as many steps. -/
  bound : Nat

namespace Cursor

/-- The start of a text. -/
def start (text : List Char) : Cursor := ⟨text, 0, 0, 0, text.length + 1⟩

/-- Moves behind a number of characters of the line. -/
def skip (c : Cursor) (n : Nat) : Cursor :=
  ⟨c.rest.drop n, c.index + n, c.line, c.column + n, c.bound⟩

/-- The next character. -/
def peek? (c : Cursor) : Option Char :=
  c.rest.head?

/-- Moves behind the end of the line, and tells how it counts: a carriage return, a line feed, both
together and the next-line character count as a line feed, the two separators as themselves. -/
def takeBreak (c : Cursor) : List Char × Cursor :=
  let behind (n : Nat) : Cursor :=
    ⟨c.rest.drop n, c.index + n, c.line + 1, 0, c.bound⟩
  match c.rest with
  | '\r' :: '\n' :: _ => (['\n'], behind 2)
  | b :: _ =>
    if b = '\n' || b = '\r' || b.toNat = 0x85 then (['\n'], behind 1)
    else if isBreak b then ([b], behind 1)
    else ([], c)
  | [] => ([], c)

/-- Moves behind spaces and tabs. -/
def skipSpaces (c : Cursor) : Cursor :=
  c.skip (c.rest.takeWhile isSpace).length

/-- Moves to the end of the line. -/
def toBreak (c : Cursor) : Cursor :=
  c.skip (c.rest.takeWhile fun ch => !isBreak ch).length

/-- Moves behind the rest of a line that may hold spaces and a comment only. -/
def skipComment? (c : Cursor) : Option Cursor :=
  let c := c.skipSpaces
  let c := if c.peek? = some '#' then c.toBreak else c
  if atBreak c.rest then some c.takeBreak.2 else none

/-- Whether a line starts here with the mark of a document's start or end. -/
def atDocumentMark (c : Cursor) : Bool :=
  c.column = 0 && match c.rest with
  | '-' :: '-' :: '-' :: rest => atBlank rest
  | '.' :: '.' :: '.' :: rest => atBlank rest
  | _ => false

end Cursor

/-- The space between two words: the blanks before the first line end, and the line ends. -/
structure Blanks where
  spaces : List Char
  breaks : List Char

/-- What the space between two words of a scalar means: spaces in one line mean themselves, a
single line end means one space, and of several the first is dropped. A separator is never
dropped. -/
def foldBlanks (b : Blanks) : List Char :=
  match b.breaks with
  | [] => b.spaces
  | first :: others =>
    if first = '\n' then (if others.isEmpty then [' '] else others) else first :: others

/-- Reads the space between two words. Behind a line end a tab in a column below `indent` is a
fault. -/
def takeBlanks (indent : Nat) : Nat → Blanks → Cursor → Option (Blanks × Cursor)
  | 0, b, c => some (b, c)
  | steps + 1, b, c =>
    match c.rest with
    | [] => some (b, c)
    | ch :: _ =>
      if isSpace ch then
        if b.breaks.isEmpty then
          takeBlanks indent steps { b with spaces := b.spaces ++ [ch] } (c.skip 1)
        else if ch = '\t' && c.column < indent then none
        else takeBlanks indent steps b (c.skip 1)
      else if isBreak ch then
        let (br, c) := c.takeBreak
        takeBlanks indent steps ⟨[], b.breaks ++ br⟩ c
      else some (b, c)

end AccessRules.Yaml
