import AccessRules.Rule.Evaluate

/-!
# What commands need of the machine

Commands read and write files, look at variables of the environment and ask for the hour. `Host`
lists these, so that a command is the same program on a real machine and on a described one.
-/

namespace AccessRules.CommandLine

/-- Why a file cannot be used: the words of the system, and its number for them. -/
structure FileFault where
  text : String
  number : Option Nat
deriving DecidableEq, Repr

namespace FileFault

def notFound : FileFault := ⟨"No such file or directory", some 2⟩

def fileExists : FileFault := ⟨"File exists", some 17⟩

def notADirectory : FileFault := ⟨"Not a directory", some 20⟩

def isADirectory : FileFault := ⟨"Is a directory", some 21⟩

/-- The faults of the system with their usual words. -/
def known : List FileFault :=
  [notFound, ⟨"Permission denied", some 13⟩, fileExists, notADirectory, isADirectory,
    ⟨"File name too long", some 36⟩, ⟨"Too many levels of symbolic links", some 40⟩]

/-- The fault of a number; one that is not known has the given words. -/
def ofNumber (number : Nat) (text : String) : FileFault :=
  (known.find? fun f => f.number = some number).getD ⟨text, some number⟩

/-- Whether it means that there is no such file. -/
def isAbsence (f : FileFault) : Bool :=
  f = notFound || f = notADirectory

/-- The wording of a fault. -/
def message (f : FileFault) : String :=
  match f.number with
  | some n => String.join [f.text, " (os error ", toString n, ")"]
  | none => f.text

end FileFault

/-- What commands need. Paths lead from the working directory. -/
class Host (m : Type → Type) where
  /-- A variable of the environment. -/
  valueOf? (name : String) : m (Option String)
  /-- The text of the nearest file `.env`. -/
  variableFile? : m (Option String)
  /-- The text of the user's settings. -/
  settings : m (Except FileFault String)
  /-- The text of a file. -/
  read (path : String) : m (Except FileFault String)
  /-- The names in a directory; none if the path leads to no directory. -/
  names? (path : String) : m (Option (List String))
  /-- Replaces the text of a file; the directory around it is made if it is missing. -/
  write (path text : String) : m (Except FileFault Unit)
  /-- Removes a file. -/
  remove (path : String) : m (Except FileFault Unit)
  /-- The hour of the day. -/
  hour : m Rule.Hour

end AccessRules.CommandLine
