import AccessRules.CommandLine.Settings
import AccessRules.CommandLine.Variables
import AccessRules.Schema.Declaration.OfYaml

/-!
# Running a command

`run` carries out what a command line asks for on a host, and reports what is to be written and
whether it went well. Where the collections are is said by the command line, the environment, the
directory or the user's settings, the first of these that says it.
-/

namespace AccessRules.CommandLine

open Schema Rule

/-- What is to be written to the two outputs, and the exit code. -/
structure Report where
  output : String
  errors : String
  exitCode : Nat
deriving DecidableEq, Repr

namespace Report

/-- All went well. -/
def success (output : String) : Report := ⟨output, "", 0⟩

/-- The line for what went wrong. -/
def errorLine (message : String) : String :=
  "Error: " ++ message ++ "\n"

/-- Something went wrong. -/
def failure (message : String) : Report := ⟨"", errorLine message, 1⟩

/-- How the program is used. -/
def usageText : String :=
  String.join [
    "Usage: rk [--collections PATH] [--format text|json] COMMAND\n\n",
    "Commands:\n",
    "  parse RULE\n",
    "  check [--collection NAME]\n",
    "  compile [RULE] [--collection NAME] [--op OPERATION] [--auth KEY=VALUE]...\n",
    "  eval [RULE] [--collection NAME] [--op OPERATION] [--context FILE] [--now MOMENT]\n",
    "  context set [--collections PATH]\n",
    "  context show\n",
    "  context clear\n"]

/-- The version of the program. -/
def versionText : String := "rk 0.1.0\n"

/-- No command is carried out. -/
def ofRefusal : Refusal → Report
  | .usage => ⟨"", usageText, 2⟩
  | .help => success usageText
  | .version => success versionText

/-- A value in JSON on lines of its own. -/
def jsonText (json : Json) : String :=
  json.pretty ++ "\n"

end Report

/-- The rule that a command is about. -/
inductive Subject
  /-- A rule on the command line. -/
  | rule (source : String)
  /-- The rule of an operation of a collection. -/
  | guard (collection : String) (operation : Operation)
deriving DecidableEq, Repr

/-- The rule that a command line means, or why it means none. -/
def Target.subject (t : Target) : Except String Subject :=
  match t.rule, t.collection, t.operation with
  | some rule, none, none => .ok (.rule rule)
  | none, some name, some operation => .ok (.guard name operation)
  | none, some _, none => .error "--op is required with --collection"
  | some _, _, _ => .error "Give either a rule or --collection/--op, not both"
  | none, none, _ => .error "Specify a rule or --collection with --op"

/-- The variable that says where the collections are. -/
def collectionsVariable : String := "RULEKIT_COLLECTIONS"

/-- What holds for a command. -/
structure Circumstances where
  collections : Option String
  format : OutputFormat
deriving DecidableEq, Repr

/-- Whether the name of a file is that of a schema text. -/
def isSchemaName (name : String) : Bool :=
  let cs := name.toList.reverse
  let ending := cs.takeWhile (· ≠ '.')
  let stem := cs.drop (ending.length + 1)
  !stem.isEmpty && (ending.reverse = "yaml".toList || ending.reverse = "yml".toList)

/-- The path of an entry of a directory. -/
def entryPath (directory name : String) : String :=
  if directory.endsWith "/" then directory ++ name else directory ++ "/" ++ name

/-- The lines of text of a checked set: its failures, or that there are none. -/
def checkText (failures : List (String × Operation × Error)) (checked : Nat) : String :=
  if failures.isEmpty then
    "✓ " ++ toString checked ++ " collection(s) checked, all rules valid\n"
  else
    String.join (failures.map fun (name, operation, e) =>
      "✗ " ++ name ++ "." ++ operation.name ++ ": " ++ e.message ++ "\n")

/-- A failure as JSON. -/
def failureJson : String × Operation × Error → Json
  | (name, operation, e) =>
    .object [("collection", .string name), ("operation", .string operation.name),
      ("code", .string e.code), ("message", .string e.message),
      ("violations", .array (e.violations.map fun v => .string v.message))]

/-- The report on a checked set. -/
def checkReport (format : OutputFormat) (failures : List (String × Operation × Error))
    (checked : Nat) : Report :=
  let output := match format with
    | .text => checkText failures checked
    | .json => Report.jsonText (.array (failures.map failureJson))
  if failures.isEmpty then .success output
  else
    ⟨output, Report.errorLine (toString failures.length ++ " rule(s) failed validation"), 1⟩

/-- The text of a filter. -/
def filterText (f : Sql.Filter) : String :=
  let lines := f.params.map fun (name, value) =>
    "  :" ++ name ++ " = " ++ value.toJson.compact ++ "\n"
  f.sql ++ "\n" ++ (if lines.isEmpty then "" else "\n" ++ String.join lines)

/-- The report on a filter. -/
def filterReport (format : OutputFormat) (f : Sql.Filter) : Report :=
  .success (match format with
    | .text => filterText f
    | .json => Report.jsonText f.toJson)

/-- The report on a decision. -/
def decisionReport (format : OutputFormat) (d : Decision) : Report :=
  .success (match format, d.reason? with
    | .json, _ => Report.jsonText d.toJson
    | .text, none => "allowed\n"
    | .text, some reason => "denied: " ++ reason ++ "\n")

/-- The report on a rule text. A fault in it is shown below the text. -/
def parseReport (format : OutputFormat) (source : String) : Report :=
  match parse source with
  | .error e =>
    let mark := String.ofList (List.replicate e.position ' ') ++ "^"
    let shown := "  " ++ source ++ "\n  " ++ mark ++ "\n"
    ⟨"", shown ++ Report.errorLine (Error.malformedRule e).message, 1⟩
  | .ok e =>
    .success (match format with
      | .text => e.text ++ "\n"
      | .json => Report.jsonText e.toJson)

section

variable {m : Type → Type} [Monad m] [Host m]

/-- A part of a command, which may fail with a message. -/
abbrev Step (m : Type → Type) := ExceptT String m

/-- A result of the library, whose errors end the command. -/
def ofResult {α : Type} (r : Except Error α) : Step m α :=
  match r with
  | .ok a => return a
  | .error e => throw e.message

/-- The text of a file that a command names. -/
def readFile (path : String) : Step m String := do
  match ← (Host.read path : m _) with
  | .ok text => return text
  | .error fault => throw (String.join ["Cannot read ", path, ": ", fault.message])

/-- The texts of some files, in order. -/
def readFiles : List String → Step m (List String)
  | [] => return []
  | path :: paths => return (← readFile path) :: (← readFiles paths)

/-- The collections at a path: those of a file, or of all schema files in a directory, in the order
of their names. -/
def loadCollections (path : String) : Step m CollectionSet := do
  let paths := match ← (Host.names? path : m _) with
    | some names =>
      ((names.filter isSchemaName).mergeSort fun a b => a ≤ b).map (entryPath path)
    | none => [path]
  ofResult (CollectionSet.ofTexts (← readFiles paths))

/-- The path of the collections, which must be known. -/
def collectionsPath (c : Circumstances) : Step m String :=
  match c.collections with
  | some path => return path
  | none =>
    throw (String.join ["Collections file not specified. Use --collections, ",
      collectionsVariable, " or 'rk context set'"])

/-- A collection of a set, which must be there. -/
def findCollection (s : CollectionSet) (name : String) : Step m Collection :=
  match s.get? name with
  | some c => return c
  | none =>
    throw (String.join ["Collection '", name, "' not found. Available: ",
      String.intercalate ", " s.names])

/-- The collection of a name at the place where the collections are. -/
def loadCollection (c : Circumstances) (name : String) : Step m Collection := do
  findCollection (← loadCollections (← collectionsPath c)) name

/-- The rule that is meant. -/
def subject (t : Target) : Step m Subject :=
  match t.subject with
  | .ok s => return s
  | .error message => throw message

/-- Checks the rules of all collections, or of one. -/
def check (c : Circumstances) (only : Option String) : Step m Report := do
  let s ← loadCollections (← collectionsPath c)
  match only with
  | none => return checkReport c.format s.failures s.size
  | some name =>
    let collection ← findCollection s name
    return checkReport c.format (collection.failures.map fun (o, e) => (name, o, e)) 1

/-- Compiles a rule to a filter. -/
def compile (c : Circumstances) (t : Target) (auth : List (String × String)) : Step m Report := do
  let auth : Sql.Auth := ⟨Dict.ofList (auth.map fun (key, value) => (key, .string value))⟩
  match ← subject t with
  | .rule source =>
    return filterReport c.format (← ofResult (Sql.Filter.ofGuard auth (.ofText? (some source))))
  | .guard name operation =>
    let collection ← loadCollection c name
    return filterReport c.format (← ofResult (collection.filter operation auth))

/-- The context in a file; without a file it is empty. -/
def loadContext : Option String → Step m Context
  | none => return .empty
  | some path => do
    match Json.read? (← readFile path) with
    | some json => ofResult (Context.ofJson json)
    | none => throw Error.json.message

/-- Decides by a rule. -/
def evaluate (c : Circumstances) (t : Target) (contextFile : Option String)
    (now : Option Moment) : Step m Report := do
  let s ← subject t
  let context ← loadContext contextFile
  let hour ← match now with
    | some moment => pure moment.hour
    | none => (Host.hour : m Hour)
  match s with
  | .rule source => return decisionReport c.format (← ofResult (decideByRule source context hour))
  | .guard name operation =>
    let collection ← loadCollection c name
    return decisionReport c.format (← ofResult (collection.authorize operation context hour))

/-- What the directory remembers; nothing if that cannot be read. -/
def directoryContext : m DirectoryContext := do
  match ← (Host.read DirectoryContext.path : m _) with
  | .ok text => return (DirectoryContext.read? text).getD .empty
  | .error _ => return .empty

/-- Makes the directory remember where its collections are. -/
def setContext (collections : Option String) : Step m Report := do
  let before ← (directoryContext : m _)
  let context : DirectoryContext := ⟨collections <|> before.collections⟩
  match ← (Host.write DirectoryContext.path context.toJson.pretty : m _) with
  | .ok () =>
    return .success (String.join ["Context updated.\n", (← (directoryContext : m _)).text])
  | .error fault => throw fault.message

/-- Makes the directory forget. -/
def clearContext : Step m Report := do
  match ← (Host.remove DirectoryContext.path : m _) with
  | .ok () => return .success "Context cleared.\n"
  | .error fault =>
    if fault.isAbsence then return .success "Context cleared.\n" else throw fault.message

/-- The user's settings; they may be missing, but not faulty. -/
def loadSettings : Step m Settings := do
  match ← (Host.settings : m _) with
  | .ok text =>
    match Settings.read? text with
    | some settings => return settings
    | none => throw Error.json.message
  | .error fault => if fault.isAbsence then return .empty else throw fault.message

/-- What holds for a command. -/
def circumstances (assigned : List (String × String)) (i : Invocation) : Step m Circumstances := do
  let settings ← loadSettings
  let context ← (directoryContext : m _)
  let named ← (valueOf? assigned collectionsVariable : m _)
  return ⟨i.collections <|> named <|> context.collections <|> settings.collections,
    (i.format <|> settings.format).getD .text⟩

/-- Carries out a command. -/
def perform (assigned : List (String × String)) (i : Invocation) : Step m Report := do
  let c ← circumstances assigned i
  match i.command with
  | .parse rule => return parseReport c.format rule
  | .check only => check c only
  | .compile target auth => compile c target auth
  | .evaluate target contextFile now => evaluate c target contextFile now
  | .setContext collections => setContext collections
  | .showContext => return .success (← (directoryContext : m _)).text
  | .clearContext => clearContext

/-- Carries out what a command line asks for. -/
def run (words : List String) : m Report := do
  let assigned ← assignedVariables
  match Invocation.ofWords words with
  | .error refusal => return .ofRefusal refusal
  | .ok invocation =>
    match ← (perform assigned invocation).run with
    | .ok report => return report
    | .error message => return .failure message

end

end AccessRules.CommandLine
