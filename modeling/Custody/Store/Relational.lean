import Custody.Store.Tables

/-!
A store over tables. Blocks are savepoints on a stack, each with the tables at its opening; all
carry one name, by which always the innermost is meant. The outbox of pushes is a table like the
others, so a failed block takes back its pushes as well.
-/
namespace Custody.Store

structure Relational where
  tables : Tables
  /-- Innermost first. -/
  savepoints : List (String × Tables)
  clock : Time.Instant

namespace Relational

def empty (clock : Time.Instant) : Relational := ⟨.empty, [], clock⟩

def blockName : String := "block"

def savepoint (name : String) (s : Relational) : Relational :=
  { s with savepoints := (name, s.tables) :: s.savepoints }

def fromName (name : String) : List (String × Tables) → List (String × Tables)
  | [] => []
  | (n, t) :: rest => if n = name then (n, t) :: rest else fromName name rest

def release (name : String) (s : Relational) : Relational :=
  { s with savepoints := (fromName name s.savepoints).tail }

def rollbackTo (name : String) (s : Relational) : Relational :=
  match fromName name s.savepoints with
  | [] => s
  | (n, t) :: rest => { s with tables := t, savepoints := (n, t) :: rest }

def enter (s : Relational) : Relational := s.savepoint blockName

def commit (s : Relational) : Relational := s.release blockName

def revert (s : Relational) : Relational := (s.rollbackTo blockName).release blockName

@[simp] theorem commit_enter (s : Relational) (t : Tables) :
    commit { s.enter with tables := t } = { s with tables := t } := by
  simp [commit, release, enter, savepoint, fromName]

@[simp] theorem revert_enter (s : Relational) (t : Tables) :
    revert { s.enter with tables := t } = s := by
  simp [revert, rollbackTo, release, enter, savepoint, fromName]

/-- Runs statements up to the first that fails; what came before it stays. -/
def perform : List Tables.Statement → Relational → Except Error Unit × Relational
  | [], s => (.ok (), s)
  | f :: rest, s =>
    match f s.tables with
    | .ok t => perform rest { s with tables := t }
    | .error e => (.error e, s)

def performAll (statements : List Tables.Statement) (s : Relational) :
    Except Error Unit × Relational :=
  match perform statements s.enter with
  | (.ok (), s') => (.ok (), s'.commit)
  | (.error e, s') => (.error e, s'.revert)

def guarded (statement : Tables.Statement) : Relational → Except Error Unit × Relational :=
  Store.guarded fun s => (statement s.tables).map fun t => { s with tables := t }

theorem perform_eq (statements : List Tables.Statement) (s : Relational) :
    ∃ t, perform statements s =
        ((Tables.together statements s.tables).map fun _ => (), { s with tables := t }) ∧
      ∀ t', Tables.together statements s.tables = .ok t' → t = t' := by
  induction statements generalizing s with
  | nil => exact ⟨s.tables, rfl, fun t' h => Except.ok.inj h⟩
  | cons f rest ih =>
    simp only [perform, Tables.together]
    cases h : f s.tables with
    | error e => exact ⟨s.tables, rfl, fun t' h' => nomatch h'⟩
    | ok t => exact ih { s with tables := t }

theorem performAll_eq (statements : List Tables.Statement) (s : Relational) :
    performAll statements s = guarded (Tables.together statements) s := by
  obtain ⟨t, h, ht⟩ := perform_eq statements s.enter
  have hs : s.enter.tables = s.tables := rfl
  unfold performAll guarded Store.guarded
  rw [h, hs]
  rw [hs] at ht
  cases hd : Tables.together statements s.tables with
  | error e => simp [Except.map, hd]
  | ok t' => simp [Except.map, ht t' hd, hd]

instance : Store Relational where
  enter := enter
  commit := commit
  revert _ s := s.revert
  insertPlatform p := performAll (Tables.platformStatements p)
  platform? s id :=
    (s.tables.platforms.find? (·.id == id)).map (Tables.readPlatform s.clock s.tables)
  platforms s :=
    (s.tables.platforms.mergeSort fun a b => a.name ≤ b.name).map
      (Tables.readPlatform s.clock s.tables)
  insertAsset a := performAll (Tables.assetStatements a)
  asset? s id := (s.tables.assets.find? (·.id == id)).map (Tables.readAsset s.clock s.tables)
  assets s :=
    (s.tables.assets.mergeSort fun a b => a.name ≤ b.name).map (Tables.readAsset s.clock s.tables)
  deleteAsset id s :=
    let (found, t) := s.tables.deleteAsset id
    (.ok found, { s with tables := t })
  node? s fullValue := s.tables.nodes.find? (·.fullValue == fullValue)
  insertNode n := guarded (Tables.insertNode n)
  insertTemplate t := guarded (Tables.insertTemplate t)
  template? s id := (s.tables.templates.find? (·.id == id)).map (Tables.readTemplate s.clock)
  templates s types :=
    ((s.tables.templates.filter fun t => types.isEmpty || types.contains t.secretType).mergeSort
      fun a b => a.name ≤ b.name).map (Tables.readTemplate s.clock)
  deleteTemplate id s :=
    (.ok (s.tables.templates.any (·.id == id)),
      { s with tables := { s.tables with templates := s.tables.templates.filter (·.id != id) } })
  insertAccount a := guarded (Tables.insertAccount a)
  updateAccount a := guarded (Tables.updateAccount a)
  account? s id := (s.tables.accounts.find? (·.id == id)).map (Tables.readAccount s.clock)
  accounts s asset :=
    ((s.tables.accounts.filter fun a => asset.all (a.assetId == ·)).mergeSort
      fun a b => a.assetId < b.assetId || (a.assetId == b.assetId && a.name ≤ b.name)).map
        (Tables.readAccount s.clock)
  accountByName? s asset name :=
    (s.tables.accounts.find? (·.hasName asset name)).map (Tables.readAccount s.clock)
  accountBySlot? s asset username type :=
    (s.tables.accounts.find? (·.hasSlot asset username type)).map (Tables.readAccount s.clock)
  enqueue p now s := { s with tables := s.tables.insertPushTask p now }

end Relational

end Custody.Store
