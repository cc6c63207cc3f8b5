import Custody.CommandLine.Host

/-!
A machine as a value: a tree of files, a home directory, an input and a supply. The command line
runs on it without the outside world. Paths are followed part by part, and only through directories.
-/
namespace Custody.CommandLine

inductive Content where
  | file (bytes : ByteArray)
  | directory

structure FileTree where
  contents : List (List String × Content)
  workingDirectory : List String

namespace FileTree

def longestName : Nat := 255

def longestPath : Nat := 4095

def content? (t : FileTree) (location : List String) : Option Content :=
  if location = [] then some .directory else t.contents.lookup location

def put (t : FileTree) (location : List String) (c : Content) : FileTree :=
  { t with contents := (location, c) :: t.contents.filter (·.1 ≠ location) }

def step (t : FileTree) (location : List String) (part : String) :
    Except FileFault (List String) :=
  match t.content? location with
  | none => .error .missing
  | some (.file _) => .error .notDirectory
  | some .directory =>
    if part = "" ∨ part = "." then .ok location
    else if part = ".." then .ok location.dropLast
    else if longestName < part.utf8ByteSize then .error .nameTooLong
    else .ok (location ++ [part])

def start (t : FileTree) (path : String) : Except FileFault (List String × List String) :=
  if path = "" then .error .missing
  else if longestPath < path.utf8ByteSize then .error .nameTooLong
  else .ok (if Path.isAbsolute path then [] else t.workingDirectory, Path.pieces path)

def locate (t : FileTree) (path : String) : Except FileFault (List String) := do
  let (location, pieces) ← t.start path
  pieces.foldlM t.step location

def find (t : FileTree) (path : String) : Except FileFault Content := do
  match t.content? (← t.locate path) with
  | some c => .ok c
  | none => .error .missing

def status (t : FileTree) (path : String) : Except FileFault FileKind := do
  match ← t.find path with
  | .file _ => return .file
  | .directory => return .directory

def readFile (t : FileTree) (path : String) : Except FileFault ByteArray := do
  match ← t.find path with
  | .file bytes => .ok bytes
  | .directory => .error .isDirectory

/-- The directory in which a path names an entry, the name, and whether slashes follow it; without
a name the path leads to a directory that is there. -/
def entry (t : FileTree) (path : String) :
    Except FileFault (Option (List String × String × Bool)) := do
  let (location, pieces) ← t.start path
  match pieces.reverse.dropWhile (· = "") with
  | [] => return none
  | last :: above =>
    let directory ← above.reverse.foldlM t.step location
    let _ ← t.step directory ""
    if last = "." ∨ last = ".." then return none
    else return some (directory, last, pieces.getLast? = some "")

def writeFile (t : FileTree) (path : String) (bytes : ByteArray) : Except FileFault FileTree := do
  match ← t.entry path with
  | none => .error .isDirectory
  | some (_, _, true) => .error .isDirectory
  | some (directory, name, false) =>
    let location ← t.step directory name
    match t.content? location with
    | some .directory => .error .isDirectory
    | _ => .ok (t.put location (.file bytes))

def removeFile (t : FileTree) (path : String) : Except FileFault FileTree := do
  match ← t.find path with
  | .directory => .error .isDirectory
  | .file _ =>
    let location ← t.locate path
    return { t with contents := t.contents.filter (·.1 ≠ location) }

def makeDirectory (t : FileTree) (path : String) : Except FileFault FileTree := do
  match ← t.entry path with
  | none => .error .exists
  | some (directory, name, _) =>
    let location ← t.step directory name
    match t.content? location with
    | some _ => .error .exists
    | none => .ok (t.put location .directory)

end FileTree

structure Machine where
  files : FileTree
  home : String
  input : String
  supply : Supply

namespace Machine

def change (f : FileTree → Except FileFault FileTree) :
    StateM Machine (Except FileFault Unit) := fun s =>
  match f s.files with
  | .ok files => (.ok (), { s with files })
  | .error e => (.error e, s)

instance : Host (StateM Machine) where
  home := do return (← get).home
  workingDirectory := do return Path.ofParts true (← get).files.workingDirectory
  input := do return (← get).input
  status path := do return (← get).files.status path
  readFile path := do return (← get).files.readFile path
  writeFile path bytes := change (·.writeFile path bytes)
  removeFile path := change (·.removeFile path)
  makeDirectory path := change (·.makeDirectory path)
  setMode _ _ := pure ()
  drawing f := fun s =>
    let (a, supply) := f s.supply
    (a, { s with supply })

end Machine

end Custody.CommandLine
