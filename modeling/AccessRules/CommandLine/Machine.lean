import AccessRules.CommandLine.Host
import AccessRules.Dict

/-!
# Described machines

A `Machine` is a host that is data: the files of a working directory, the variables of the
environment, the user's settings and the hour. What lies outside the working directory does not
exist for it.
-/

namespace AccessRules.CommandLine

/-- A file, or a directory with its entries by name. -/
inductive FileTree
  | file (text : String)
  | directory (entries : List (String × FileTree))

namespace FileTree

/-- The parts of a path between its strokes. -/
def partsOf (path : String) : List String :=
  path.splitOn "/"

/-- Follows the parts of a path. `above` are the directories around the place, the innermost
first. Empty parts and `.` stay, `..` leads up. -/
def walk (above : List FileTree) (here : FileTree) : List String → Except FileFault FileTree
  | [] => .ok here
  | part :: parts =>
    match here with
    | .file _ => .error .notADirectory
    | .directory entries =>
      if part = "" || part = "." then walk above here parts
      else if part = ".." then
        match above with
        | [] => .error .notFound
        | up :: above => walk above up parts
      else match entries.lookup part with
        | none => .error .notFound
        | some next => walk (here :: above) next parts

/-- What a path leads to. The empty path leads nowhere. -/
def find (tree : FileTree) (path : String) : Except FileFault FileTree :=
  if path = "" || path.startsWith "/" then .error .notFound else walk [] tree (partsOf path)

/-- Makes a file in directories that do not exist yet. -/
def fresh (text : String) : List String → FileTree
  | [] => .file text
  | part :: parts => .directory [(part, fresh text parts)]

/-- Puts an entry in the place of the one of its name, or at the end. -/
def placeEntry (name : String) (tree : FileTree) :
    List (String × FileTree) → List (String × FileTree)
  | [] => [(name, tree)]
  | (n, t) :: entries =>
    if n = name then (name, tree) :: entries else (n, t) :: placeEntry name tree entries

/-- Writes a file at the parts of a path, none of which is `..`. -/
def put (text : String) : List String → FileTree → Except FileFault FileTree
  | [], .file _ => .ok (.file text)
  | [], .directory _ => .error .isADirectory
  | _ :: _, .file _ => .error .fileExists
  | part :: parts, .directory entries =>
    match entries.lookup part with
    | none => .ok (.directory (placeEntry part (fresh text parts) entries))
    | some tree =>
      match put text parts tree with
      | .error f => .error f
      | .ok tree => .ok (.directory (placeEntry part tree entries))

/-- Removes a file at the parts of a path, none of which is `..`. -/
def erase : List String → FileTree → Except FileFault FileTree
  | _, .file _ => .error .notADirectory
  | [], .directory _ => .error .isADirectory
  | [part], .directory entries =>
    match entries.lookup part with
    | none => .error .notFound
    | some (.directory _) => .error .isADirectory
    | some (.file _) => .ok (.directory (entries.filter fun e => e.1 ≠ part))
  | part :: parts, .directory entries =>
    match entries.lookup part with
    | none => .error .notFound
    | some tree =>
      match erase parts tree with
      | .error f => .error f
      | .ok tree => .ok (.directory (placeEntry part tree entries))

/-- The working directory with the given files. -/
def ofFiles (files : List (String × String)) : FileTree :=
  files.foldl (fun tree (path, text) => (put text (partsOf path) tree).toOption.getD tree)
    (.directory [])

end FileTree

/-- A machine as data. -/
structure Machine where
  files : FileTree
  environment : List (String × String)
  settings : Option String
  hour : Rule.Hour

namespace Machine

/-- The text of a file. -/
def read (machine : Machine) (path : String) : Except FileFault String :=
  match machine.files.find path with
  | .error f => .error f
  | .ok (.file text) => .ok text
  | .ok (.directory _) => .error .isADirectory

/-- The names in a directory. -/
def names? (machine : Machine) (path : String) : Option (List String) :=
  match machine.files.find path with
  | .ok (.directory entries) => some (entries.map Prod.fst)
  | _ => none

/-- Keeps changed files, or the fault that prevents the change. -/
def update (change : FileTree → Except FileFault FileTree) :
    StateM Machine (Except FileFault Unit) :=
  fun machine =>
    match change machine.files with
    | .error f => (.error f, machine)
    | .ok files => (.ok (), { machine with files := files })

instance : Host (StateM Machine) where
  valueOf? name := return (← get).environment.lookup name
  variableFile? := return ((← get).read ".env").toOption
  settings := return match (← get).settings with
    | some text => .ok text
    | none => .error .notFound
  read path := return (← get).read path
  names? path := return (← get).names? path
  write path text := update (FileTree.put text (FileTree.partsOf path))
  remove path := update (FileTree.erase (FileTree.partsOf path))
  hour := return (← get).hour

end Machine

end AccessRules.CommandLine
