import Custody.Database.Script
import Custody.Store.Relational

/-!
Database files: the version of the schema, the tables and indexes that exist, and the rows. Opening
one creates it or brings it up to the current version.
-/
namespace Custody

structure Database.TableIndex where
  name : String
  table : String
deriving DecidableEq, Repr

structure Database where
  version : Int
  tables : List String
  indexes : List Database.TableIndex
  rows : Store.Tables

namespace Database

def currentVersion : Int := 2

def versionTable : String := "schema_version"

def pushTable : String := "push_tasks"

def pushIndex : TableIndex := ⟨"idx_push_tasks_created", pushTable⟩

/-- Without the table of pushes, which version 2 added. -/
def firstTables : List String := [
  versionTable, "platforms", "platform_protocols", "assets", "asset_protocols", "labels",
  "asset_labels", "nodes", "asset_nodes", "account_templates", "accounts"]

def firstIndexes : List TableIndex := [
  ⟨"idx_accounts_asset", "accounts"⟩, ⟨"idx_asset_protocols_asset", "asset_protocols"⟩]

inductive Part where
  | table (name : String)
  | index (index : TableIndex)
deriving DecidableEq, Repr

def pushParts : List Part := [.table pushTable, .index pushIndex]

def parts : List Part := firstTables.map .table ++ firstIndexes.map .index ++ pushParts

def blank : Database := ⟨0, [], [], .empty⟩

def fileMode : Nat := 0o600

def versionFits (v : Int) : Bool := -0x80000000 ≤ v && v < 0x80000000

def has (d : Database) : Part → Bool
  | .table name => d.tables.contains name
  | .index index => d.indexes.contains index

def add (d : Database) : Part → Database
  | .table name => { d with tables := d.tables ++ [name], rows := d.rows.clear name }
  | .index index => { d with indexes := d.indexes ++ [index] }

def ensure (d : Database) (p : Part) : Database := if d.has p then d else d.add p

/-- Creates parts one after the other and fails on one that exists; those before it stay. -/
def build : List Part → Database → Bool × Database
  | [], d => (true, d)
  | p :: rest, d => if d.has p then (false, d) else build rest (d.add p)

def storedVersion (d : Database) : Int := if d.has (.table versionTable) then d.version else 0

def isOutdated (d : Database) : Bool := d.storedVersion < currentVersion

/-- Brings an older database up to the current version. Of all versions before that one, 1 alone has
a step that adds anything. -/
def migrate (d : Database) : Database :=
  { pushParts.foldl ensure d with version := currentVersion }

/-- The outcome of opening a database, and the database that is left. Version 0 asks for a creation,
and the script fails on tables that exist: first of all on the table of versions. -/
def prepare (d : Database) : Except Error Unit × Database :=
  if !versionFits d.storedVersion then (.error (.storage (.beyondColumn d.storedVersion 0)), d)
  else if d.storedVersion = 0 then
    match build parts d with
    | (true, d) => (.ok (), { d with version := currentVersion })
    | (false, d) => (.error (.storage (.tableExists versionTable script firstTableOffset)), d)
  else if d.isOutdated then (.ok (), d.migrate)
  else (.ok (), d)

def opened (stored : Option Database) : Except Error Database :=
  let (r, d) := (stored.getD blank).prepare
  r.map fun () => d

def drop (table : String) (d : Database) : Database :=
  { d with
    tables := d.tables.filter (· ≠ table)
    indexes := d.indexes.filter (·.table ≠ table)
    rows := d.rows.clear table }

end Database

end Custody
