import AccessRules.Yaml.Cursor

/-!
# The texts of scalars

A scalar is plain, between quotes, or a block of indented lines. Each reader starts at the scalar
and gives its text and the place behind it.
-/

namespace AccessRules.Yaml

/-- The value of a hexadecimal digit of either case. -/
def hexValue? (c : Char) : Option Nat :=
  if '0' ≤ c && c ≤ '9' then some (c.toNat - '0'.toNat)
  else if 'a' ≤ c && c ≤ 'f' then some (c.toNat - 'a'.toNat + 10)
  else if 'A' ≤ c && c ≤ 'F' then some (c.toNat - 'A'.toNat + 10)
  else none

/-- The character with a code point in hexadecimal. -/
def hexChar? (digits : List Char) : Option Char :=
  match digits.mapM hexValue? with
  | none => none
  | some values =>
    let n := values.foldl (fun n v => 16 * n + v) 0
    if n.isValidChar then some (Char.ofNat n) else none

/-- What an escape letter stands for: a character, or one given by so many hexadecimal digits. -/
inductive Escape
  | char (c : Char)
  | code (digits : Nat)

/-- The meaning of the character behind a backslash. -/
def escape? (c : Char) : Option Escape :=
  match c with
  | '0' => some (.char (Char.ofNat 0))
  | 'a' => some (.char (Char.ofNat 0x07))
  | 'b' => some (.char (Char.ofNat 0x08))
  | 't' => some (.char '\t')
  | '\t' => some (.char '\t')
  | 'n' => some (.char '\n')
  | 'v' => some (.char (Char.ofNat 0x0B))
  | 'f' => some (.char (Char.ofNat 0x0C))
  | 'r' => some (.char '\r')
  | 'e' => some (.char (Char.ofNat 0x1B))
  | ' ' => some (.char ' ')
  | '"' => some (.char '"')
  | '/' => some (.char '/')
  | '\\' => some (.char '\\')
  | 'N' => some (.char (Char.ofNat 0x85))
  | '_' => some (.char (Char.ofNat 0xA0))
  | 'L' => some (.char (Char.ofNat 0x2028))
  | 'P' => some (.char (Char.ofNat 0x2029))
  | 'x' => some (.code 2)
  | 'u' => some (.code 4)
  | 'U' => some (.code 8)
  | _ => none

/-- Reads a scalar between quotes from behind the opening one. Within it lines are folded; two
single quotes stand for one, and a backslash between double quotes starts an escape or hides the
line end behind it. -/
def quotedText (quote : Char) : Nat → List Char → Cursor → Option (List Char × Cursor)
  | 0, _, _ => none
  | steps + 1, text, c =>
    if c.atDocumentMark then none
    else match c.rest with
    | [] => none
    | ch :: rest =>
      if ch = '\'' && quote = '\'' && rest.head? = some '\'' then
        quotedText quote steps (text ++ ['\'']) (c.skip 2)
      else if ch = quote then some (text, c.skip 1)
      else if ch = '\\' && quote = '"' then
        match rest with
        | [] => none
        | e :: rest =>
          if isBreak e then
            match takeBlanks 0 c.bound ⟨[], []⟩ (c.skip 1).takeBreak.2 with
            | some (b, c) => quotedText quote steps (text ++ b.breaks) c
            | none => none
          else match escape? e with
            | none => none
            | some (.char e) => quotedText quote steps (text ++ [e]) (c.skip 2)
            | some (.code n) =>
              if (rest.take n).length < n then none
              else match hexChar? (rest.take n) with
                | none => none
                | some e => quotedText quote steps (text ++ [e]) (c.skip (2 + n))
      else if isSpace ch || isBreak ch then
        match takeBlanks 0 c.bound ⟨[], []⟩ c with
        | some (b, c) => quotedText quote steps (text ++ foldBlanks b) c
        | none => none
      else quotedText quote steps (text ++ [ch]) (c.skip 1)

/-- Whether a plain scalar ends before the character `ch`, which `rest` follows. -/
def endsPlain (flow : Bool) (ch : Char) (rest : List Char) : Bool :=
  (ch = ':' && atBlank rest) ||
    (flow && (ch = ',' || ch = '[' || ch = ']' || ch = '{' || ch = '}'))

/-- Whether a colon stands in a flow collection where it can be neither text nor indicator. -/
def faultyColon (flow : Bool) (ch : Char) (rest : List Char) : Bool :=
  flow && ch = ':' && match rest with
  | [] => false
  | next :: _ => next = ',' || next = '?' || next = '[' || next = ']' || next = '{' || next = '}'

/-- Reads the characters of a plain scalar up to a blank or its end. -/
def plainWord (flow : Bool) : Nat → List Char → Cursor → Option (List Char × Cursor)
  | 0, word, c => some (word, c)
  | steps + 1, word, c =>
    match c.rest with
    | [] => some (word, c)
    | ch :: rest =>
      if isSpace ch || isBreak ch then some (word, c)
      else if faultyColon flow ch rest then none
      else if endsPlain flow ch rest then some (word, c)
      else plainWord flow steps (word ++ [ch]) (c.skip 1)

/-- A plain scalar: its text, the place behind it and the blanks that follow, and whether it went
over the end of a line there. -/
structure PlainText where
  text : List Char
  cursor : Cursor
  overBreak : Bool

/-- Reads a plain scalar. It goes on over blanks and line ends as long as the lines are indented at
least to `indent`; it stops at a comment, at the mark of a document and at an indicator. `pending`
are the blanks that count only if another word follows. -/
def plainText (flow : Bool) (indent : Nat) : Nat → List Char → Blanks → Cursor → Option PlainText
  | 0, _, _, _ => none
  | steps + 1, text, pending, c =>
    let stopped : PlainText := ⟨text, c, !pending.breaks.isEmpty⟩
    if c.atDocumentMark || c.peek? = some '#' then some stopped
    else match plainWord flow c.bound [] c with
      | none => none
      | some (word, c) =>
        let text := if word.isEmpty then text else text ++ foldBlanks pending ++ word
        let pending := if word.isEmpty then pending else ⟨[], []⟩
        if c.rest.isEmpty || !atBlank c.rest then some ⟨text, c, !pending.breaks.isEmpty⟩
        else match takeBlanks indent c.bound pending c with
          | none => none
          | some (pending, c) =>
            if !flow && c.column < indent then some ⟨text, c, !pending.breaks.isEmpty⟩
            else plainText flow indent steps text pending c

/-- What the line ends behind a block scalar count for. -/
inductive Chomping
  | strip
  | clip
  | keep
deriving DecidableEq

/-- The chomping that a sign asks for. -/
def Chomping.ofSign? (c : Char) : Option Chomping :=
  if c = '+' then some .keep else if c = '-' then some .strip else none

/-- The header of a block scalar behind its indicator: the chomping and the indentation, in either
order, none of them needed. -/
def blockHeader (cs : List Char) : Option (Chomping × Option Nat × Nat) :=
  let digit? (c : Char) : Option Nat :=
    if '0' ≤ c && c ≤ '9' then some (c.toNat - '0'.toNat) else none
  let found (chomping : Chomping) (n : Nat) (length : Nat) : Option (Chomping × Option Nat × Nat) :=
    if n = 0 then none else some (chomping, some n, length)
  match cs with
  | [] => some (.clip, none, 0)
  | a :: cs =>
    match Chomping.ofSign? a with
    | some chomping =>
      match cs.head?.bind digit? with
      | some n => found chomping n 2
      | none => some (chomping, none, 1)
    | none =>
      match digit? a with
      | none => some (.clip, none, 0)
      | some n =>
        match cs.head?.bind Chomping.ofSign? with
        | some chomping => found chomping n 2
        | none => found .clip n 1

/-- Reads empty lines and the indentation of the line behind them. Without a known indentation it
measures the deepest column reached. A tab within the indentation is a fault. -/
def blockBreaks (indent : Option Nat) : Nat → List Char → Nat → Cursor →
    Option (List Char × Nat × Cursor)
  | 0, breaks, deepest, c => some (breaks, deepest, c)
  | steps + 1, breaks, deepest, c =>
    let spaces := (c.rest.takeWhile (· = ' ')).length
    let c := c.skip (match indent with
      | none => spaces
      | some n => min spaces (n - c.column))
    let deepest := max deepest c.column
    let within := match indent with
      | none => true
      | some n => decide (c.column < n)
    if within && c.peek? = some '\t' then none
    else if !c.rest.isEmpty && atBreak c.rest then
      let (br, c) := c.takeBreak
      blockBreaks indent steps (breaks ++ br) deepest c
    else some (breaks, deepest, c)

/-- Reads the lines of a block scalar with a known indentation. `lead` is the end of the line
before, `breaks` are the empty lines behind it, and `leadBlank` tells whether that line started
with a blank. Folding drops a single line end between two lines that start with no blank. -/
def blockLines (folded : Bool) (indent : Nat) : Nat → List Char → List Char → List Char → Bool →
    Cursor → Option (List Char × List Char × List Char × Cursor)
  | 0, _, _, _, _, _ => none
  | steps + 1, text, lead, breaks, leadBlank, c =>
    if c.column ≠ indent || c.rest.isEmpty then some (text, lead, breaks, c)
    else
      let blank := (c.rest.head?.map isSpace).getD false
      let joined :=
        if folded && lead.head? = some '\n' && !leadBlank && !blank then
          if breaks.isEmpty then [' '] else []
        else lead
      let line := c.rest.takeWhile fun ch => !isBreak ch
      let (lead, c) := (c.skip line.length).takeBreak
      match blockBreaks (some indent) c.bound [] 0 c with
      | none => none
      | some (breaks', _, c) =>
        blockLines folded indent steps (text ++ joined ++ breaks ++ line) lead breaks' blank c

/-- Reads a block scalar from behind its indicator; `parent` is the indentation around it. -/
def blockText (folded : Bool) (parent : Int) (c : Cursor) : Option (List Char × Cursor) :=
  match blockHeader c.rest with
  | none => none
  | some (chomping, explicit, length) =>
    match (c.skip length).skipComment? with
    | none => none
    | some c =>
      let given := explicit.map fun n => if 0 ≤ parent then parent.toNat + n else n
      match blockBreaks given c.bound [] 0 c with
      | none => none
      | some (breaks, deepest, c) =>
        let indent := given.getD (max deepest (max (parent + 1).toNat 1))
        match blockLines folded indent c.bound [] [] breaks false c with
        | none => none
        | some (text, lead, breaks, c) =>
          let tail := match chomping with
            | .strip => []
            | .clip => lead
            | .keep => lead ++ breaks
          some (text ++ tail, c)

end AccessRules.Yaml
