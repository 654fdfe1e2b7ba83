import AccessRules.CommandLine.Run
import Std.Time.Zoned

/-!
# The program `rk`

Checks, compiles and evaluates the access rules of collections. This module lets commands run on
the machine itself.
-/

namespace AccessRules.CommandLine

/-- The fault of a number of the system, which may also be given below zero. -/
def systemFault (number : UInt32) (text : String) : FileFault :=
  let n := number.toNat
  .ofNumber (if n < Nat.pow 2 31 then n else Nat.pow 2 32 - n) text

/-- The fault that an error of the system means. -/
def faultOf : IO.Error → FileFault
  | .alreadyExists _ number text => systemFault number text
  | .noFileOrDirectory _ number text => systemFault number text
  | .permissionDenied _ number text => systemFault number text
  | .inappropriateType _ number text => systemFault number text
  | .resourceExhausted _ number text => systemFault number text
  | .invalidArgument _ number text => systemFault number text
  | .illegalOperation number text => systemFault number text
  | .noSuchThing _ number text => systemFault number text
  | .otherError number text => systemFault number text
  | .resourceBusy number text => systemFault number text
  | e => ⟨toString e, none⟩

/-- Runs an action on files. -/
def attempt {α : Type} (action : IO α) : IO (Except FileFault α) := do
  try return .ok (← action)
  catch e => return .error (faultOf e)

/-- The directory around a path. -/
def directoryOf (path : String) : String :=
  let cs := path.toList.reverse.dropWhile (· ≠ '/')
  String.ofList (cs.drop 1).reverse

/-- The text of the file of a name in the nearest of a directory and those around it. -/
def nearestFile? (name : String) : Nat → String → IO (Option String)
  | 0, _ => return none
  | steps + 1, directory => do
    match ← attempt (IO.FS.readFile (directory ++ "/" ++ name)) with
    | .ok text => return some text
    | .error _ =>
      if directory = "" then return none else nearestFile? name steps (directoryOf directory)

/-- The hour of the day where the machine is, or in universal time if that is not known. -/
def currentHour : IO Rule.Hour := do
  let now ← try Std.Time.DateTime.now
    catch _ => return universal (← Std.Time.Timestamp.now)
  return hourOf now
where
  hourOf (now : Std.Time.DateTime) : Rule.Hour := Fin.ofNat 24 now.hour.val.toNat
  universal (now : Std.Time.Timestamp) : Rule.Hour :=
    hourOf (Std.Time.DateTime.ofTimestampWithZone now .UTC)

instance : Host IO where
  valueOf? name := IO.getEnv name
  variableFile? := do
    let directory := (← IO.currentDir).toString
    nearestFile? ".env" (directory.length + 1) directory
  settings := do
    match ← IO.getEnv "HOME" with
    | some home => attempt (IO.FS.readFile (home ++ "/.rulekit/config.json"))
    | none => return .error ⟨"Cannot find home directory", none⟩
  read path := attempt (IO.FS.readFile path)
  names? path := do
    match ← attempt (do (← IO.FS.realPath path).readDir) with
    | .ok entries => return some (entries.toList.map fun e => e.fileName)
    | .error _ => return none
  write path text := attempt do
    IO.FS.createDirAll (directoryOf path)
    IO.FS.writeFile path text
  remove path := attempt (IO.FS.removeFile path)
  hour := currentHour

end AccessRules.CommandLine

open AccessRules.CommandLine in
/-- Carries out the command line, writes the report and gives its exit code. -/
def main (words : List String) : IO UInt32 := do
  let report ← run words
  IO.print report.output
  IO.eprint report.errors
  return report.exitCode.toUInt32
