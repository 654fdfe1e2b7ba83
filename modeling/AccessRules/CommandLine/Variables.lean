import AccessRules.CommandLine.Host
import AccessRules.Text.Blank
import AccessRules.Text.Letter

/-!
# Files of variables

A file `.env` assigns texts to variables, one a line: `NAME=value`, perhaps behind `export`. A
value may have quoted parts; between single quotes all stands for itself, and elsewhere a backslash
hides the character behind it and `$NAME` or a name in braces stands for the value of a variable.
Quoted parts may go over line ends. A `#` behind a blank starts a comment. `Assignments.ofText`
reads assignments up to the first faulty line.
-/

namespace AccessRules.CommandLine

open Text

/-- What the characters of a line mean at a place. -/
inductive LineState
  | plain
  | escape
  | singleQuoted
  | singleQuotedEscape
  | doubleQuoted
  | doubleQuotedEscape
  | blank
  | comment
deriving DecidableEq, Repr

/-- What the characters behind one mean. -/
def LineState.after (state : LineState) (c : Char) : LineState :=
  let start : LineState :=
    if c = '\\' then .escape
    else if c = '"' then .doubleQuoted
    else if c = '\'' then .singleQuoted
    else .plain
  match state with
  | .plain => if isBlank c && c ≠ '\n' && c ≠ '\r' then .blank else start
  | .blank => if c = '#' then .comment else start
  | .escape => .plain
  | .singleQuoted =>
    if c = '\\' then .singleQuotedEscape else if c = '\'' then .plain else .singleQuoted
  | .singleQuotedEscape => .singleQuoted
  | .doubleQuoted =>
    if c = '\\' then .doubleQuotedEscape else if c = '"' then .plain else .doubleQuoted
  | .doubleQuotedEscape => .doubleQuoted
  | .comment => .comment

/-- The state at the end of some characters, or at the start of a comment in them, and how many
characters stand before that. -/
def LineState.atEnd (state : LineState) (taken : Nat) : List Char → LineState × Nat
  | [] => (state, taken)
  | c :: cs =>
    match state.after c with
    | .comment => (.comment, taken)
    | next => next.atEnd (taken + 1) cs

/-- Cuts a text behind its line feeds. -/
def physicalLines : List Char → List (List Char)
  | [] => []
  | c :: cs =>
    if c = '\n' then [c] :: physicalLines cs
    else match physicalLines cs with
      | [] => [[c]]
      | line :: lines => (c :: line) :: lines

/-- Drops the end of a line. -/
def withoutLineEnd (line : List Char) : List Char :=
  match line.reverse with
  | '\n' :: '\r' :: rest => rest.reverse
  | '\n' :: rest => rest.reverse
  | _ => line

/-- Joins the lines over which quoted parts go, and cuts off comments. `begun` is the line so far. A
text that ends within a line gives a fault. -/
def joinedLines (state : LineState) (begun : List Char) :
    List (List Char) → List (Option (List Char))
  | [] => if state = .plain then [] else [none]
  | line :: lines =>
    let text := begun ++ line
    if (text.dropWhile isBlank).head? = some '#' then some [] :: joinedLines .plain [] lines
    else match state.atEnd 0 line with
      | (.plain, _) => some (withoutLineEnd text) :: joinedLines .plain [] lines
      | (.comment, taken) => some (begun ++ line.take taken) :: joinedLines .plain [] lines
      | (state, _) => joinedLines state text lines

/-- A part of a value. -/
inductive ValuePart
  | char (c : Char)
  /-- The value of a variable. -/
  | variable (name : String)
deriving DecidableEq, Repr

/-- What the characters of a value mean at a place. -/
structure ValueState where
  singleQuoted : Bool
  doubleQuoted : Bool
  escaped : Bool
  /-- The name of a variable that is being read, and whether it stands in braces. -/
  name : Option (Bool × List Char)

namespace ValueState

/-- At the start of a value. -/
def start : ValueState := ⟨false, false, false, none⟩

/-- The part that a name read so far stands for. -/
def variablePart (name : List Char) : ValuePart :=
  .variable (String.ofList name)

/-- The parts of the rest of a value. Behind a blank outside quotes only blanks and a comment may
follow. -/
def parts? (s : ValueState) : List Char → Option (List ValuePart)
  | [] =>
    if s.singleQuoted || s.doubleQuoted then none
    else match s.name with
      | some (true, _) => none
      | some (false, name) => some [variablePart name]
      | none => some []
  | c :: cs =>
    if s.escaped then
      let s := { s with escaped := false }
      if "\\'\"$ ".toList.contains c then (s.parts? cs).map (.char c :: ·)
      else if c = 'n' then (s.parts? cs).map (.char '\n' :: ·)
      else none
    else if s.singleQuoted then
      if c = '\'' then { s with singleQuoted := false }.parts? cs
      else (s.parts? cs).map (.char c :: ·)
    else match s.name with
      | some (braced, name) =>
        if isLetter c || isNumeral c then { s with name := some (braced, name ++ [c]) }.parts? cs
        else if braced then
          if c = '\x7d' then ({ s with name := none }.parts? cs).map (variablePart name :: ·)
          else { s with name := some (true, name ++ [c]) }.parts? cs
        else if c = '\x7b' && name.isEmpty then { s with name := some (true, []) }.parts? cs
        else if c = '$' then
          ({ s with name := some (false, []) }.parts? cs).map (variablePart name :: ·)
        else ({ s with name := none }.parts? cs).map fun ps => variablePart name :: .char c :: ps
      | none =>
        if c = '$' then { s with name := some (false, []) }.parts? cs
        else if c = '\\' then { s with escaped := true }.parts? cs
        else if s.doubleQuoted then
          if c = '"' then { s with doubleQuoted := false }.parts? cs
          else (s.parts? cs).map (.char c :: ·)
        else if c = '\'' then { s with singleQuoted := true }.parts? cs
        else if c = '"' then { s with doubleQuoted := true }.parts? cs
        else if c = ' ' || c = '\t' then
          match cs.dropWhile fun c => c = ' ' || c = '\t' with
          | [] => some []
          | next :: _ => if next = '#' then some [] else none
        else (s.parts? cs).map (.char c :: ·)

end ValueState

/-- An assignment. -/
structure Assignment where
  name : String
  value : List ValuePart
deriving DecidableEq, Repr

namespace Assignment

/-- Drops blanks off the front. -/
def skipBlanks (cs : List Char) : List Char :=
  cs.dropWhile isBlank

/-- Reads the name of a variable off the front. -/
def name? (cs : List Char) : Option (String × List Char) :=
  match cs with
  | [] => none
  | c :: _ =>
    if c.isAlpha || c = '_' then
      let name := cs.takeWhile fun c => c.isAlphanum || c = '_' || c = '.'
      some (String.ofList name, skipBlanks (cs.drop name.length))
    else none

/-- Reads an equals sign and the value behind it. -/
def value? (cs : List Char) : Option (List ValuePart) :=
  match cs with
  | '=' :: cs =>
    let cs := skipBlanks cs
    if cs.head? = some '#' then some [] else ValueState.start.parts? cs
  | _ => none

/-- Reads a line; the inner option is none if it holds no assignment. The word `export` before a
name is skipped, unless an equals sign makes it the name. -/
def ofLine? (line : List Char) : Option (Option Assignment) :=
  let cs := skipBlanks ((line.reverse.dropWhile isBlank).reverse)
  if cs.isEmpty || cs.head? = some '#' then some none
  else match name? cs with
    | none => none
    | some (name, rest) =>
      let found :=
        if name = "export" && rest.head? ≠ some '=' then name? rest else some (name, rest)
      match found with
      | none => none
      | some (name, rest) => (value? rest).map fun value => some ⟨name, value⟩

/-- Reads lines up to the first faulty one. -/
def ofLines : List (Option (List Char)) → List Assignment
  | [] => []
  | none :: _ => []
  | some line :: lines =>
    match ofLine? line with
    | none => []
    | some none => ofLines lines
    | some (some a) => a :: ofLines lines

/-- The assignments in a text, which may start with a byte order mark. -/
def ofText (text : String) : List Assignment :=
  let cs := text.toList
  let cs := if cs.head? = some (Char.ofNat 0xFEFF) then cs.drop 1 else cs
  ofLines (joinedLines .plain [] (physicalLines cs))

end Assignment

section

variable {m : Type → Type} [Monad m] [Host m]

/-- The value of a variable: that of the environment, or else one assigned before. -/
def valueOf? (assigned : List (String × String)) (name : String) : m (Option String) := do
  match ← Host.valueOf? name with
  | some value => return some value
  | none => return assigned.lookup name

/-- The text of a value. -/
def valueText (assigned : List (String × String)) : List ValuePart → m String
  | [] => return ""
  | .char c :: parts => return String.singleton c ++ (← valueText assigned parts)
  | .variable name :: parts =>
    return ((← valueOf? assigned name).getD "") ++ (← valueText assigned parts)

/-- Carries out assignments. A variable that has a value keeps it. -/
def assign (assigned : List (String × String)) : List Assignment → m (List (String × String))
  | [] => return assigned
  | a :: rest => do
    let value ← valueText assigned a.value
    match ← valueOf? assigned a.name with
    | some _ => assign assigned rest
    | none => assign ((a.name, value) :: assigned) rest

/-- The variables that the file of variables adds to the environment. -/
def assignedVariables : m (List (String × String)) := do
  match ← Host.variableFile? with
  | none => return []
  | some text => assign [] (Assignment.ofText text)

end

end AccessRules.CommandLine
