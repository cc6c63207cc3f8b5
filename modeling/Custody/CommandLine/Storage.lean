import Custody.CommandLine.Session
import Custody.Database.File
import Custody.Database.Target
import Custody.Store.ReadOnly

/-!
Open databases: finding the file that a name stands for, reading it, and storing what operations
leave. The path of a database file is resolved by its text alone, but each part of it that exists
has to be reachable.
-/
namespace Custody.CommandLine

structure Storage where
  database : Database
  file : Option String
  writable : Bool

namespace Storage

def longestPath : Nat := 504

def longestWay : Nat := 511

section

variable {m : Type → Type} [Monad m] [Host m]

def walk (way : Option (List String)) (part : String) : m (Option (List String)) := do
  match way with
  | none => return none
  | some location =>
    if part = ".." then return some location.dropLast
    let path := Path.ofParts true (location ++ [part])
    if longestWay < path.utf8ByteSize then return none
    match ← Host.status path with
    | .ok _ => return some (location ++ [part])
    | .error .missing => return some (location ++ [part])
    | .error _ => return none

def resolve (path : String) : m (Option String) := do
  let start ← if Path.isAbsolute path then pure "" else Host.workingDirectory
  let way ← (Path.parts start ++ Path.parts path).foldlM walk (some [])
  return (way.filter (· ≠ [])).map (Path.ofParts true) |>.filter (·.utf8ByteSize ≤ longestPath)

def refuse (name : String) : Session m α := throw (.storage (.unopenable name))

def openFile (name path : String) (access : Database.Access) : Session m (String × ByteArray) := do
  match ← ask (resolve path) with
  | none => refuse name
  | some file =>
    match ← ask (Host.status file), access with
    | .ok .file, _ => pure ()
    | .ok .directory, .read => throw (.storage .unreadable)
    | .error .missing, .create =>
      onFiles (fun _ => .storage (.unopenable name)) (Host.writeFile file .empty)
    | _, _ => refuse name
    let bytes ← onFiles (fun _ => .storage (.unopenable name)) (Host.readFile file)
    return (file, bytes)

/-! ### Journals -/

/-- The file in which a write notes what it changes; it is taken away when the write is done. -/
def journalOf (file : String) : String := file ++ "-journal"

def mayHaveJournal (file : String) : m Bool := do
  match ← Host.status (journalOf file) with
  | .ok kind => return kind = .file
  | .error e => return e = .missing

/-- Whether an interrupted write has left these notes: there are some, and where the file is not
empty they do not begin with a zero byte. -/
def areLeft (notes bytes : ByteArray) : Bool :=
  notes.size ≠ 0 && (!Database.isPresent bytes || notes[0]? ≠ some 0)

/-- Takes away the journal that an interrupted write has left beside the file, which only a writer
may do. -/
def settle (file : String) (bytes : ByteArray) (access : Database.Access) : Session m Unit := do
  let journal := journalOf file
  match ← ask (Host.status journal) with
  | .error _ => pure ()
  | .ok .directory => if Database.isPresent bytes then throw (.storage .unreadable)
  | .ok .file =>
    let notes ← onFiles (fun _ => .storage .noJournal) (Host.readFile journal)
    if areLeft notes bytes then
      if access ≠ .read then onFiles (fun _ => .storage .unreadable) (Host.removeFile journal)
      else if Database.isPresent bytes then throw (.storage .readOnly)

def save (s : Storage) : Session m Unit := do
  if !s.writable then throw (.storage .readOnly)
  if let some file := s.file then
    let journal := journalOf file
    if !(← ask (mayHaveJournal file)) then throw (.storage .noJournal)
    onFiles (fun _ => .storage .noJournal) (Host.writeFile file s.database.print)
    if ← ask (Host.present journal) then
      onFiles (fun _ => .storage .unreadable) (Host.removeFile journal)

/-! ### Opening and running -/

def openNamed (name : String) : Session m Storage := do
  if let some (before, _) := Text.cutFirst '\x00' name.toList then
    throw (.storage (.zeroByte (String.ofList before).utf8ByteSize))
  let _ ← ask (Host.makeParents name)
  let target ← check ((Database.Target.read name).mapError .storage)
  let (file, bytes) ← match target.place with
    | .memory => pure (none, ByteArray.empty)
    | .file path access => do
      let (file, bytes) ← openFile name path access
      if target.writable || access = .read then settle file bytes access
      pure (some file, bytes)
  ask (Host.setMode name Database.fileMode)
  let stored ← check (Database.read bytes)
  let s : Storage := ⟨← check (Database.opened stored), file, target.writable⟩
  if stored.all (·.isOutdated) then s.save
  return s

/-- Runs steps on the database; what they wrote is stored even if they fail. -/
def perform (s : Storage) (steps : {σ : Type} → [Store σ] → Run σ α) : Session m α := do
  let (r, rows) ← ask (Host.drawing fun supply =>
    let store : Store.Relational := ⟨s.database.rows, [], (supply.draws supply.used).now⟩
    if s.writable then
      let (r, world) := steps ⟨store, supply⟩
      ((r, world.store.tables), world.supply)
    else
      let (r, world) := steps ⟨Store.ReadOnly.mk store, supply⟩
      ((r, s.database.rows), world.supply))
  if s.writable then save { s with database := { s.database with rows } }
  check r

def look (s : Storage) (f : Store.Relational → α) : Session m α := do
  let now ← ask (Host.drawing fun supply => ((supply.draws supply.used).now, supply))
  return f ⟨s.database.rows, [], now⟩

end

end Storage

end Custody.CommandLine
