import AccessRules.Yaml.Property

/-!
# Scanning a YAML text

`Token.scan` cuts a whole text into tokens. Which blocks start and end where follows from the
columns of their first tokens. Whether a token is the key of a mapping shows only at the colon
behind it, so the scanner remembers for each level of flow collections the one token that may
still turn out to be a key; at the colon the key and, in block context, the start of its mapping
are inserted before it. Such a key is at most 1024 characters long and in one line.
-/

namespace AccessRules.Yaml

/-- A token that may turn out to be a key. -/
structure PossibleKey where
  /-- Whether it must be one, since it stands where the block around it goes on. -/
  required : Bool
  /-- The number of tokens before it. -/
  token : Nat
  index : Nat
  line : Nat
  column : Nat

/-- Whether it is too far from a place to be a key of what stands there. -/
def PossibleKey.isStale (k : PossibleKey) (c : Cursor) : Bool :=
  k.line < c.line || k.index + 1024 < c.index

/-- What the scanner knows at a place. -/
structure Scanner where
  cursor : Cursor
  /-- The tokens found, the last one first. -/
  tokens : List Token
  /-- The number of tokens found. -/
  found : Nat
  /-- The columns of the blocks around the place, the innermost first. -/
  indents : List Nat
  /-- Whether a key may start here. -/
  keyAllowed : Bool
  /-- The possible key of the innermost flow level. -/
  possible : Option PossibleKey
  /-- The possible keys of the flow levels around it. -/
  outer : List (Option PossibleKey)

namespace Scanner

/-- The scanner at the start of a text. -/
def start (text : List Char) : Scanner :=
  ⟨.start text, [], 0, [], true, none, []⟩

/-- Whether a flow collection is open. -/
def inFlow (s : Scanner) : Bool :=
  !s.outer.isEmpty

/-- The column of the innermost block; `-1` outside all. -/
def indent (s : Scanner) : Int :=
  match s.indents with
  | [] => -1
  | n :: _ => n

/-- Adds a token. -/
def emit (s : Scanner) (t : Token) : Scanner :=
  { s with tokens := t :: s.tokens, found := s.found + 1 }

/-- Inserts a token behind a number of tokens. -/
def insertAt (s : Scanner) (place : Nat) (t : Token) : Scanner :=
  let later := s.found - place
  { s with tokens := s.tokens.take later ++ t :: s.tokens.drop later, found := s.found + 1 }

/-- Adds a token of one character. -/
def emitSign (s : Scanner) (t : Token) : Scanner :=
  { s.emit t with cursor := s.cursor.skip 1 }

/-- Starts a block at a column, unless the innermost one is as far in already. -/
def openBlock (s : Scanner) (column place : Nat) (t : Token) : Scanner :=
  if !s.inFlow && s.indent < column then { s.insertAt place t with indents := column :: s.indents }
  else s

/-- Starts a block at the current token. -/
def openBlockHere (s : Scanner) (t : Token) : Scanner :=
  s.openBlock s.cursor.column s.found t

/-- Ends the blocks that are further in than a column. -/
def closeBlocks (s : Scanner) (column : Int) : Scanner :=
  if s.inFlow then s
  else
    let closed := s.indents.takeWhile fun (n : Nat) => column < n
    { s with
      tokens := closed.map (fun _ => Token.blockEnd) ++ s.tokens
      found := s.found + closed.length
      indents := s.indents.drop closed.length }

/-- Gives up the possible key of the innermost level; none if it must be a key. -/
def dropKey (s : Scanner) : Option Scanner :=
  if (s.possible.map PossibleKey.required).getD false then none
  else some { s with possible := none }

/-- Makes the next token the possible key of the innermost level, if a key may start here. -/
def saveKey (s : Scanner) : Option Scanner :=
  if !s.keyAllowed then some s
  else
    let c := s.cursor
    let required := !s.inFlow && s.indent = c.column
    s.dropKey.map fun s =>
      { s with possible := some ⟨required, s.found, c.index, c.line, c.column⟩ }

/-- Gives up the possible keys that are too far back; none if one of them must be a key. -/
def dropStaleKeys (s : Scanner) : Option Scanner :=
  let stale (k : PossibleKey) : Bool := k.isStale s.cursor
  let fault : Option PossibleKey → Bool
    | some k => stale k && k.required
    | none => false
  if (s.possible :: s.outer).any fault then none
  else some { s with
    possible := s.possible.filter fun k => !stale k
    outer := s.outer.map fun o => o.filter fun k => !stale k }

/-- Moves behind blanks, comments and line ends. A tab may not stand where a key could start, and
a byte order mark may start a line. -/
def toToken : Nat → Scanner → Scanner
  | 0, s => s
  | steps + 1, s =>
    let c := s.cursor
    let c := if c.column = 0 && c.peek? = some (Char.ofNat 0xFEFF) then c.skip 1 else c
    let tabs := s.inFlow || !s.keyAllowed
    let c := c.skip (c.rest.takeWhile fun ch => ch = ' ' || (tabs && ch = '\t')).length
    let c := if c.peek? = some '#' then c.toBreak else c
    if c.rest.isEmpty || !atBreak c.rest then { s with cursor := c }
    else toToken steps { s with cursor := c.takeBreak.2, keyAllowed := s.keyAllowed || !s.inFlow }

/-- Takes a token that has been read. -/
def take (s : Scanner) (keyAllowed : Bool) : Found → Option Scanner
  | none => none
  | some (t, c) => some { s.emit t with cursor := c, keyAllowed := keyAllowed }

/-- Takes the mark of a document's start or end, or a directive. -/
def takeOutside (s : Scanner) (found : Cursor → Found) : Option Scanner :=
  match (s.closeBlocks (-1)).dropKey with
  | none => none
  | some s => s.take false (found s.cursor)

/-- Takes the sign that starts a flow collection. -/
def openFlow (s : Scanner) (t : Token) : Option Scanner :=
  s.saveKey.map fun s =>
    { s.emitSign t with keyAllowed := true, possible := none, outer := s.possible :: s.outer }

/-- Takes the sign that ends a flow collection. -/
def closeFlow (s : Scanner) (t : Token) : Option Scanner :=
  s.dropKey.map fun s =>
    let s := { s.emitSign t with keyAllowed := false }
    match s.outer with
    | [] => s
    | possible :: outer => { s with possible := possible, outer := outer }

/-- Takes a comma. -/
def takeComma (s : Scanner) : Option Scanner :=
  s.dropKey.map fun s => { s.emitSign .flowEntry with keyAllowed := true }

/-- Takes the sign of an item of a sequence. -/
def takeDash (s : Scanner) : Option Scanner :=
  if !s.inFlow && !s.keyAllowed then none
  else (s.openBlockHere .blockSequenceStart).dropKey.map fun s =>
    { s.emitSign .blockEntry with keyAllowed := true }

/-- Takes the sign of a key. -/
def takeQuestion (s : Scanner) : Option Scanner :=
  if !s.inFlow && !s.keyAllowed then none
  else (s.openBlockHere .blockMappingStart).dropKey.map fun s =>
    { s.emitSign .key with keyAllowed := !s.inFlow }

/-- Takes the sign of a value. If there is a possible key it is one. -/
def takeColon (s : Scanner) : Option Scanner :=
  match s.possible with
  | some k =>
    let s := ({ s with possible := none, keyAllowed := false }).insertAt k.token .key
    some ((s.openBlock k.column k.token .blockMappingStart).emitSign .value)
  | none =>
    if !s.inFlow && !s.keyAllowed then none
    else
      let s := s.openBlockHere .blockMappingStart
      some { s.emitSign .value with keyAllowed := !s.inFlow }

/-- Takes a token that may be a key or stand before one. -/
def takeNode (s : Scanner) (found : Cursor → Found) : Option Scanner :=
  match s.saveKey with
  | none => none
  | some s => s.take false (found s.cursor)

/-- Takes a reference to an anchor, or an anchor. -/
def takeAnchor (s : Scanner) (token : String → Token) : Option Scanner :=
  s.takeNode fun c => (anchorName (c.skip 1)).map fun (name, c) => (token name, c)

/-- Takes a scalar between quotes. -/
def takeQuoted (s : Scanner) (quote : Char) : Option Scanner :=
  s.takeNode fun c =>
    (quotedText quote c.bound [] (c.skip 1)).map fun (text, c) =>
      (.scalar .quoted (String.ofList text), c)

/-- Takes a block scalar. -/
def takeBlock (s : Scanner) (style : ScalarStyle) : Option Scanner :=
  match s.dropKey with
  | none => none
  | some s =>
    s.take true <| (blockText (style == .folded) s.indent (s.cursor.skip 1)).map fun (text, c) =>
      (.scalar style (String.ofList text), c)

/-- Takes a plain scalar. If it ends behind a line end a key may follow. -/
def takePlain (s : Scanner) : Option Scanner :=
  match s.saveKey with
  | none => none
  | some s =>
    let c := s.cursor
    match plainText s.inFlow (s.indent + 1).toNat c.bound [] ⟨[], []⟩ c with
    | none => none
    | some p => s.take p.overBreak (some (.scalar .plain (String.ofList p.text), p.cursor))

/-- Whether a plain scalar may start with a character, which `rest` follows. -/
def startsPlain (flow : Bool) (ch : Char) (rest : List Char) : Bool :=
  if ch = '-' then !(rest.head?.map isSpace).getD false
  else if ch = '?' || ch = ':' then !flow && !atBlank rest
  else !isSpace ch && !isBreak ch && !",[]\x7b\x7d#&*!|>'\"%@\x60".toList.contains ch

/-- Takes the next token, which starts with the character `ch`. -/
def takeToken (s : Scanner) (ch : Char) (rest : List Char) : Option Scanner :=
  let blankFollows := atBlank rest
  if s.cursor.column = 0 && ch = '%' then s.takeOutside fun c => directiveToken (c.skip 1)
  else if s.cursor.atDocumentMark then
    s.takeOutside fun c => some (if ch = '-' then .documentStart else .documentEnd, c.skip 3)
  else if ch = '[' then s.openFlow .flowSequenceStart
  else if ch = '\x7b' then s.openFlow .flowMappingStart
  else if ch = ']' then s.closeFlow .flowSequenceEnd
  else if ch = '\x7d' then s.closeFlow .flowMappingEnd
  else if ch = ',' then s.takeComma
  else if ch = '-' && blankFollows then s.takeDash
  else if ch = '?' && (s.inFlow || blankFollows) then s.takeQuestion
  else if ch = ':' && (s.inFlow || blankFollows) then s.takeColon
  else if ch = '*' then s.takeAnchor .alias
  else if ch = '&' then s.takeAnchor .anchor
  else if ch = '!' then s.takeNode fun c => tagToken s.inFlow (c.skip 1)
  else if ch = '|' && !s.inFlow then s.takeBlock .literal
  else if ch = '>' && !s.inFlow then s.takeBlock .folded
  else if ch = '\'' || ch = '"' then s.takeQuoted ch
  else if startsPlain s.inFlow ch rest then s.takePlain
  else none

/-- Ends the text: all blocks end with it. -/
def finish (s : Scanner) : Option (List Token) :=
  (s.closeBlocks (-1)).dropKey.map fun s => (Token.streamEnd :: s.tokens).reverse

/-- Takes tokens up to the end of the text. Each takes at least one character, which bounds the
steps. -/
def run : Nat → Scanner → Option (List Token)
  | 0, _ => none
  | steps + 1, s =>
    let s := s.toToken s.cursor.bound
    match s.dropStaleKeys with
    | none => none
    | some s =>
      let s := s.closeBlocks s.cursor.column
      match s.cursor.rest with
      | [] => s.finish
      | ch :: rest =>
        match s.takeToken ch rest with
        | none => none
        | some s => run steps s

end Scanner

/-- The tokens of a text, if it can be cut into tokens. -/
def Token.scan (text : String) : Option (List Token) :=
  let cs := text.toList
  if cs.all isReadable then (Scanner.start cs).run (cs.length + 1) else none

end AccessRules.Yaml
