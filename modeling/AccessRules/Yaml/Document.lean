import AccessRules.Dict
import AccessRules.Yaml.Node
import AccessRules.Yaml.Scan

/-!
# Reading a YAML text as one document

`Document.read?` reads a text that holds one document; a text without any content is a document
in which nothing stands. The grammar is that of blocks and flow collections; where it lets a node
be left out, nothing stands there. A second document is a fault.
-/

namespace AccessRules.Yaml

/-- What is left of the tokens, and what the names in them mean. -/
structure Reading where
  tokens : List Token
  /-- What each handle of a tag stands for. -/
  handles : List (String × String)
  /-- The number of the anchor that each name means by now. -/
  names : Dict Nat
  /-- How many anchors there are. -/
  anchors : Nat
  /-- The nodes with anchors that have been read. -/
  anchored : List (Nat × Node)

/-- A step of reading. -/
abbrev Reader := StateT Reading Option

namespace Reader

/-- The next token. -/
def peek : Reader Token :=
  return (← get).tokens.head?.getD .streamEnd

/-- Moves behind the next token. -/
def next : Reader Unit :=
  modify fun r => { r with tokens := r.tokens.drop 1 }

/-- Moves behind the next token, which must be a certain one. -/
def expect (t : Token) : Reader Unit := do
  if (← peek) = t then next else failure

/-- The tag that a handle and an ending stand for. -/
def resolveTag (handle ending : String) : Reader String := do
  if handle = "" then return ending
  else match (← get).handles.lookup handle with
    | some start => return start ++ ending
    | none => failure

/-- Reads a tag, if one stands here. -/
def tag? : Reader (Option String) := do
  match ← peek with
  | .tag handle ending => next; return some (← resolveTag handle ending)
  | _ => return none

/-- Reads an anchor, if one stands here. -/
def anchor? : Reader (Option String) := do
  match ← peek with
  | .anchor name => next; return some name
  | _ => return none

/-- Reads an anchor and a tag in either order. -/
def properties : Reader (Option String × Option String) := do
  match ← anchor? with
  | some name => return (some name, ← tag?)
  | none =>
    match ← tag? with
    | some tag => return (← anchor?, some tag)
    | none => return (none, none)

/-- Gives a name to the node that follows. -/
def declare (name : String) : Reader Nat :=
  modifyGet fun r =>
    (r.anchors, { r with names := Dict.insert name r.anchors r.names, anchors := r.anchors + 1 })

mutual

/-- Reads a node. Only in a block may blocks start, and only behind a key or a value may a sequence
stand without a block of its own. -/
def node (block indentless : Bool) : Nat → Reader Node
  | 0 => failure
  | steps + 1 => do
    match ← peek with
    | .alias name =>
      next
      match Dict.find? (← get).names name with
      | some anchor => return .reference anchor
      | none => failure
    | _ =>
      let (name, tag) ← properties
      match name with
      | none => content block indentless false tag steps
      | some name =>
        let anchor ← declare name
        let found ← content block indentless true tag steps
        modify fun r => { r with anchored := (anchor, found) :: r.anchored }
        return found

/-- Reads a node behind its properties. If it has any it may be left out. -/
def content (block indentless named : Bool) (tag : Option String) : Nat → Reader Node
  | 0 => failure
  | steps + 1 => do
    match block, indentless, ← peek with
    | _, true, .blockEntry => return .sequence tag (← looseItems steps)
    | _, _, .scalar style text => next; return .scalar (tag.filter (· ≠ "!")) style text
    | _, _, .flowSequenceStart => next; return .sequence tag (← flowItems true steps)
    | _, _, .flowMappingStart => next; return .mapping tag (← flowEntries true steps)
    | true, _, .blockSequenceStart => next; return .sequence tag (← blockItems steps)
    | true, _, .blockMappingStart => next; return .mapping tag (← blockEntries steps)
    | _, _, _ => if named || tag.isSome then return .scalar tag .plain "" else failure

/-- Reads the items of a sequence up to the end of its block. -/
def blockItems : Nat → Reader (List Node)
  | 0 => failure
  | steps + 1 => do
    match ← peek with
    | .blockEntry =>
      next
      let item ← match ← peek with
        | .blockEntry | .blockEnd => pure Node.nothing
        | _ => node true false steps
      return item :: (← blockItems steps)
    | .blockEnd => next; return []
    | _ => failure

/-- Reads the items of a sequence without a block of its own. -/
def looseItems : Nat → Reader (List Node)
  | 0 => failure
  | steps + 1 => do
    match ← peek with
    | .blockEntry =>
      next
      let item ← match ← peek with
        | .blockEntry | .key | .value | .blockEnd => pure Node.nothing
        | _ => node true false steps
      return item :: (← looseItems steps)
    | _ => return []

/-- Reads a key or a value of a mapping in a block. -/
def blockPart : Nat → Reader Node
  | 0 => failure
  | steps + 1 => do
    match ← peek with
    | .key | .value | .blockEnd => return .nothing
    | _ => node true true steps

/-- Reads the entries of a mapping up to the end of its block. -/
def blockEntries : Nat → Reader (List (Node × Node))
  | 0 => failure
  | steps + 1 => do
    match ← peek with
    | .key =>
      next
      let key ← blockPart steps
      let value ← match ← peek with
        | .value => do next; blockPart steps
        | _ => pure Node.nothing
      return (key, value) :: (← blockEntries steps)
    | .blockEnd => next; return []
    | _ => failure

/-- Reads the value of an entry that ends with a comma or the given sign. -/
def flowValue (ending : Token) : Nat → Reader Node
  | 0 => failure
  | steps + 1 => do
    if (← peek) ≠ .value then return .nothing
    else
      next
      let t ← peek
      if t = .flowEntry || t = ending then return .nothing else node false false steps

/-- Reads a single entry within a sequence, from behind the sign of its key. A sign without a key
takes the token behind it. -/
def flowPair : Nat → Reader (Node × Node)
  | 0 => failure
  | steps + 1 => do
    let key ← match ← peek with
      | .value | .flowEntry | .flowSequenceEnd => do next; pure Node.nothing
      | _ => node false false steps
    return (key, ← flowValue .flowSequenceEnd steps)

/-- Reads the items of a sequence up to its closing bracket. -/
def flowItems (first : Bool) : Nat → Reader (List Node)
  | 0 => failure
  | steps + 1 => do
    if !first && (← peek) ≠ .flowSequenceEnd then expect .flowEntry
    match ← peek with
    | .flowSequenceEnd => next; return []
    | .key =>
      next
      let pair ← flowPair steps
      return .mapping none [pair] :: (← flowItems false steps)
    | _ =>
      let item ← node false false steps
      return item :: (← flowItems false steps)

/-- Reads the entries of a mapping up to its closing brace. -/
def flowEntries (first : Bool) : Nat → Reader (List (Node × Node))
  | 0 => failure
  | steps + 1 => do
    if !first && (← peek) ≠ .flowMappingEnd then expect .flowEntry
    match ← peek with
    | .flowMappingEnd => next; return []
    | .key =>
      next
      let key ← match ← peek with
        | .value | .flowEntry | .flowMappingEnd => pure Node.nothing
        | _ => node false false steps
      let value ← flowValue .flowMappingEnd steps
      return (key, value) :: (← flowEntries false steps)
    | _ =>
      let key ← node false false steps
      return (key, .nothing) :: (← flowEntries false steps)

end

/-- Reads the directives before a document. There is at most one version, which must be 1.1 or
1.2, and at most one declaration of each handle. -/
def directives (versioned : Bool) : Nat → Reader Unit
  | 0 => failure
  | steps + 1 => do
    match ← peek with
    | .versionDirective major minor =>
      if versioned || major ≠ 1 || (minor ≠ 1 && minor ≠ 2) then failure
      else do next; directives true steps
    | .tagDirective handle start =>
      if ((← get).handles.lookup handle).isSome then failure
      else
        modify fun r => { r with handles := (handle, start) :: r.handles }
        next
        directives versioned steps
    | _ => return

/-- The handles that need no declaration. -/
def standardHandles : List (String × String) :=
  [("!", "!"), ("!!", "tag:yaml.org,2002:")]

/-- Reads a document behind its start mark. -/
def marked (steps : Nat) : Reader Node := do
  match ← peek with
  | .versionDirective .. | .tagDirective .. | .documentStart | .documentEnd | .streamEnd =>
    return .nothing
  | _ => node true false steps

/-- Moves behind marks of the end of a document. -/
def documentEnds : Reader Unit :=
  modify fun r => { r with tokens := r.tokens.dropWhile (· = .documentEnd) }

/-- Reads a text with at most one document. -/
def document (steps : Nat) : Reader Document := do
  let root ← match ← peek with
    | .streamEnd => pure Node.nothing
    | .versionDirective .. | .tagDirective .. | .documentStart => do
      directives false steps
      expect .documentStart
      modify fun r => { r with handles := r.handles ++ standardHandles }
      marked steps
    | _ => do
      modify fun r => { r with handles := standardHandles }
      node true false steps
  documentEnds
  expect .streamEnd
  return ⟨root, (← get).anchored⟩

end Reader

/-- The document that a row of tokens describes. No token is looked at by more than four readers
inside each other, which bounds the steps. -/
def Document.ofTokens? (tokens : List Token) : Option Document :=
  ((Reader.document (4 * tokens.length + 4)).run' ⟨tokens, [], [], 0, []⟩)

/-- The document of a text. -/
def Document.read? (text : String) : Option Document :=
  (Token.scan text).bind ofTokens?

end AccessRules.Yaml
