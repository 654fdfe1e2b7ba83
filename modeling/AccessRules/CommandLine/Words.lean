/-!
# Options and operands

The words of a command line are read from left to right. An option is a word `--name=value`, or
`--name` with the next word as its value, which must not look like an option itself. Behind `--`
all words are operands. Where subcommands are admitted the first of their names ends the level,
and the words behind it belong to the level of the subcommand.
-/

namespace AccessRules.CommandLine

/-- Why a command line asks for no command. -/
inductive Refusal
  /-- It is not understood. -/
  | usage
  /-- It asks for help. -/
  | help
  /-- It asks for the version. -/
  | version
deriving DecidableEq, Repr

/-- What the words of a level may be. -/
structure Level where
  /-- The options, each of which may stand once. -/
  options : List String
  /-- The options that may stand any number of times. -/
  repeatable : List String
  /-- How many operands there may be. -/
  operands : Nat
  subcommands : List String

/-- What the words of a level are. -/
structure Words where
  options : List (String × String)
  operands : List String
  /-- The subcommand and the words behind it. -/
  subcommand : Option (String × List String)

namespace Words

/-- No word has been read. -/
def empty : Words := ⟨[], [], none⟩

/-- The value of an option that may stand once. -/
def option? (w : Words) (name : String) : Option String :=
  w.options.lookup name

/-- The values of an option, in order. -/
def values (w : Words) (name : String) : List String :=
  (w.options.filter fun o => o.1 = name).map Prod.snd

/-- Adds the value of an option. -/
def addOption (level : Level) (w : Words) (name value : String) : Except Refusal Words :=
  let once := level.options.contains name && (w.option? name).isNone
  if once || level.repeatable.contains name then
    .ok { w with options := w.options ++ [(name, value)] }
  else .error .usage

/-- Adds an operand. -/
def addOperand (level : Level) (w : Words) (word : String) : Except Refusal Words :=
  if w.operands.length < level.operands then .ok { w with operands := w.operands ++ [word] }
  else .error .usage

/-- Adds operands. -/
def addOperands (level : Level) (w : Words) : List String → Except Refusal Words
  | [] => .ok w
  | word :: words =>
    match w.addOperand level word with
    | .error refusal => .error refusal
    | .ok w => addOperands level w words

/-- Whether a word cannot be a value: it starts with a dash, and is more than one. -/
def looksLikeOption (word : String) : Bool :=
  word.startsWith "-" && word ≠ "-"

/-- The name of a long option and the value behind its equals sign, if there is one. -/
def longOption (word : String) : String × Option String :=
  let cs := word.toList.drop 2
  let name := cs.takeWhile (· ≠ '=')
  let value :=
    if name.length < cs.length then some (String.ofList (cs.drop (name.length + 1))) else none
  (String.ofList name, value)

/-- What an option without a value asks for. -/
def flag (word : String) (hasVersion : Bool) : Refusal :=
  if word = "--help" || word.startsWith "-h" then .help
  else if hasVersion && (word = "--version" || word.startsWith "-V") then .version
  else .usage

/-- Reads the words of a level. -/
def read (level : Level) (hasVersion : Bool) (w : Words) : List String → Except Refusal Words
  | [] => .ok w
  | word :: rest =>
    if level.subcommands.contains word then .ok { w with subcommand := some (word, rest) }
    else if word = "--" then w.addOperands level rest
    else if word.startsWith "--" then
      let (name, attached) := longOption word
      if !(level.options ++ level.repeatable).contains name then .error (flag word hasVersion)
      else match attached, rest with
        | some value, rest =>
          match w.addOption level name value with
          | .error refusal => .error refusal
          | .ok w => read level hasVersion w rest
        | none, [] => .error .usage
        | none, value :: rest =>
          if looksLikeOption value then .error .usage
          else match w.addOption level name value with
            | .error refusal => .error refusal
            | .ok w => read level hasVersion w rest
    else if looksLikeOption word then .error (flag word hasVersion)
    else match w.addOperand level word with
      | .error refusal => .error refusal
      | .ok w => read level hasVersion w rest

end Words

end AccessRules.CommandLine
