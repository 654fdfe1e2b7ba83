import AccessRules.CommandLine.Moment
import AccessRules.CommandLine.Words
import AccessRules.Operation

/-!
# Command lines

`Invocation.ofWords` finds out which command a command line asks for. Two options may stand at
every level: where the collections are, and how the answer is written; the deeper one counts.
-/

namespace AccessRules.CommandLine

/-- How an answer is written. -/
inductive OutputFormat
  | text
  | json
deriving DecidableEq, Repr

/-- The format of a name. -/
def OutputFormat.ofName? (name : String) : Option OutputFormat :=
  match name with
  | "text" => some .text
  | "json" => some .json
  | _ => none

/-- What a command line says about the rule that it means. -/
structure Target where
  rule : Option String
  collection : Option String
  operation : Option Operation
deriving DecidableEq, Repr

/-- A command. -/
inductive Command
  | parse (rule : String)
  | check (collection : Option String)
  | compile (target : Target) (auth : List (String × String))
  | evaluate (target : Target) (contextFile : Option String) (now : Option Moment)
  | setContext (collections : Option String)
  | showContext
  | clearContext
deriving DecidableEq, Repr

/-- A command line that is understood. -/
structure Invocation where
  collections : Option String
  format : Option OutputFormat
  command : Command
deriving DecidableEq, Repr

namespace Invocation

/-- The options that may stand at every level. -/
def everywhere : List String := ["collections", "format"]

/-- The words behind the name of the program. -/
def rootLevel : Level :=
  ⟨everywhere, [], 0, ["parse", "check", "compile", "eval", "context", "help"]⟩

def parseLevel : Level := ⟨everywhere, [], 1, []⟩

def checkLevel : Level := ⟨"collection" :: everywhere, [], 0, []⟩

def compileLevel : Level := ⟨["collection", "op"] ++ everywhere, ["auth"], 1, []⟩

def evaluateLevel : Level := ⟨["collection", "op", "context", "now"] ++ everywhere, [], 1, []⟩

def contextLevel : Level := ⟨everywhere, [], 0, ["set", "show", "clear", "help"]⟩

def leafLevel : Level := ⟨everywhere, [], 0, []⟩

/-- The value of an option, if it stands there, which must have a meaning. -/
def meaning? {α : Type} (w : Words) (name : String) (read : String → Option α) :
    Except Refusal (Option α) :=
  match w.option? name with
  | none => .ok none
  | some value =>
    match read value with
    | some a => .ok (some a)
    | none => .error .usage

/-- A path, which must not be empty. -/
def path? (text : String) : Option String :=
  if text = "" then none else some text

/-- A name and a value with an equals sign between them. Blanks around the name are dropped. -/
def pair? (text : String) : Option (String × String) :=
  let cs := text.toList
  let key := cs.takeWhile (· ≠ '=')
  let trimmed := ((key.dropWhile Text.isBlank).reverse.dropWhile Text.isBlank).reverse
  if key.length < cs.length then
    some (String.ofList trimmed, String.ofList (cs.drop (key.length + 1)))
  else none

/-- What the words of a level say about the rule that is meant. -/
def target (w : Words) : Except Refusal Target := do
  let operation ← meaning? w "op" Operation.ofName?
  return ⟨w.operands.head?, w.option? "collection", operation⟩

/-- What the options that may stand at every level say at one of them, unless a deeper level says
it. -/
def around (w : Words) (inner : Invocation) : Except Refusal Invocation := do
  let collections ← meaning? w "collections" path?
  let format ← meaning? w "format" OutputFormat.ofName?
  return { inner with
    collections := inner.collections <|> collections
    format := inner.format <|> format }

/-- A level whose words give a command. -/
def leaf (level : Level) (words : List String) (command : Words → Except Refusal Command) :
    Except Refusal Invocation := do
  let w ← Words.read level false .empty words
  around w ⟨none, none, ← command w⟩

/-- The command that evaluates a rule. -/
def evaluation (w : Words) : Except Refusal Command := do
  let contextFile ← meaning? w "context" path?
  let now ← meaning? w "now" Moment.read?
  return .evaluate (← target w) contextFile now

/-- The command that compiles a rule. -/
def compilation (w : Words) : Except Refusal Command := do
  match (w.values "auth").mapM pair? with
  | some auth => return .compile (← target w) auth
  | none => throw .usage

/-- The words behind `context`. -/
def ofContextWords (words : List String) : Except Refusal Invocation := do
  let w ← Words.read contextLevel false .empty words
  let inner ← match w.subcommand with
    | some ("set", words) => leaf leafLevel words fun _ => .ok (.setContext none)
    | some ("show", words) => leaf leafLevel words fun _ => .ok .showContext
    | some ("clear", words) => leaf leafLevel words fun _ => .ok .clearContext
    | some _ => throw .help
    | none => throw .usage
  around w inner

/-- The place of the collections that is to be remembered is the one given at any level. -/
def remembering (i : Invocation) : Invocation :=
  match i.command with
  | .setContext _ => { i with command := .setContext i.collections }
  | _ => i

/-- What a command line asks for. -/
def ofWords (words : List String) : Except Refusal Invocation := do
  let w ← Words.read rootLevel true .empty words
  let inner ← match w.subcommand with
    | some ("parse", words) =>
      leaf parseLevel words fun w =>
        match w.operands with
        | rule :: _ => .ok (.parse rule)
        | [] => .error .usage
    | some ("check", words) => leaf checkLevel words fun w => .ok (.check (w.option? "collection"))
    | some ("compile", words) => leaf compileLevel words compilation
    | some ("eval", words) => leaf evaluateLevel words evaluation
    | some ("context", words) => ofContextWords words
    | some _ => throw .help
    | none => throw .usage
  return remembering (← around w inner)

end Invocation

end AccessRules.CommandLine
