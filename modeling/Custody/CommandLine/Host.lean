import Custody.Config
import Custody.Store

/-!
What the command line needs of the machine it runs on, and what it makes of it.
-/
namespace Custody.CommandLine

inductive FileFault where
  | missing | exists | notDirectory | isDirectory | nameTooLong | notText
  | other (text : String)
deriving DecidableEq, Repr

def FileFault.message : FileFault → String
  | missing => "No such file or directory (os error 2)"
  | .exists => "File exists (os error 17)"
  | notDirectory => "Not a directory (os error 20)"
  | isDirectory => "Is a directory (os error 21)"
  | nameTooLong => "File name too long (os error 36)"
  | notText => "stream did not contain valid UTF-8"
  | other text => text

inductive FileKind where
  | file | directory
deriving DecidableEq, Repr

class Host (m : Type → Type) where
  home : m String
  /-- The absolute path of the working directory. -/
  workingDirectory : m String
  /-- The whole of the standard input. -/
  input : m String
  status : String → m (Except FileFault FileKind)
  readFile : String → m (Except FileFault ByteArray)
  writeFile : String → ByteArray → m (Except FileFault Unit)
  removeFile : String → m (Except FileFault Unit)
  /-- Makes one directory. -/
  makeDirectory : String → m (Except FileFault Unit)
  /-- Sets the permissions of a file, if it can. -/
  setMode : String → Nat → m Unit
  drawing : {α : Type} → (Supply → α × Supply) → m α

namespace Host

variable {m : Type → Type} [Monad m] [Host m]

def present (path : String) : m Bool := do
  match ← status path with
  | .ok _ => return true
  | .error _ => return false

def readText (path : String) : m (Except FileFault String) := do
  match ← readFile path with
  | .error e => return .error e
  | .ok bytes =>
    match String.fromUTF8? bytes with
    | some text => return .ok text
    | none => return .error .notText

def writeText (path text : String) : m (Except FileFault Unit) := writeFile path text.toUTF8

def ensureDirectory (path : String) : m (Except FileFault Unit) := do
  match ← makeDirectory path with
  | .ok () => return .ok ()
  | .error e => return if (← status path) matches .ok .directory then .ok () else .error e

/-- Makes a directory and those above it that are missing; its parts are given last one first. -/
def makeAlong (absolute : Bool) : List String → m (Except FileFault Unit)
  | [] => return .ok ()
  | part :: above => do
    let path := Path.ofParts absolute (part :: above).reverse
    match ← ensureDirectory path with
    | .error .missing =>
      match ← makeAlong absolute above with
      | .ok () => ensureDirectory path
      | .error e => return .error e
    | r => return r

def makeParents (path : String) : m (Except FileFault Unit) := do
  let absolute := Path.isAbsolute path
  let above := (Path.parts path).dropLast
  if above = [] || (← present (Path.ofParts absolute above)) then return .ok ()
  else makeAlong absolute above.reverse

end Host

end Custody.CommandLine
