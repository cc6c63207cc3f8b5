import Custody.Store

/-!
Tables of rows and the statements on them. A statement checks its unique indexes, the youngest
first, then its references; it is done in full or not at all. A value of arbitrary structure is kept
as its text and read from it every time.
-/
namespace Custody

/-- Every connection is opened with this turned on: what a row refers to has to be there. -/
def Database.enforcesReferences : Bool := true

namespace Store

/-- The switches of the automation are columns; its configuration is a column of its own. -/
structure PlatformRow where
  id : String
  name : String
  category : Category
  type : AssetType
  charset : Charset
  domainEnabled : Bool
  suEnabled : Bool
  suMethod : Option SuMethod
  automation : Automation
  ansibleConfig : Option String
  customFields : List CustomField
  comment : String
  dateCreated : Time.Instant

structure PlatformProtocolRow where
  platformId : String
  protocol : Protocol
deriving DecidableEq

structure AssetRow where
  id : String
  name : String
  address : String
  platformId : String
  category : Category
  type : AssetType
  domain : Option String
  isActive : Bool
  comment : String
  dateCreated : Time.Instant
deriving DecidableEq

structure AssetProtocolRow where
  assetId : String
  name : String
  port : UInt16
  primary : Bool
deriving DecidableEq

structure LabelRow where
  id : Nat
  label : Label
deriving DecidableEq

structure AssetLabelRow where
  assetId : String
  labelId : Nat
deriving DecidableEq

structure AssetNodeRow where
  assetId : String
  nodeId : String
deriving DecidableEq

structure PushRow where
  id : Nat
  accountIds : List String
  params : Option String
  createdAt : Time.Instant
deriving DecidableEq

structure PushTask where
  id : Nat
  push : Push
  createdAt : Time.Instant

structure Tables where
  platforms : List PlatformRow
  platformProtocols : List PlatformProtocolRow
  assets : List AssetRow
  assetProtocols : List AssetProtocolRow
  labels : List LabelRow
  assetLabels : List AssetLabelRow
  nodes : List Node
  assetNodes : List AssetNodeRow
  templates : List Template
  accounts : List Account
  pushTasks : List PushRow

structure Index (ρ : Type) where
  columns : String
  agree : ρ → ρ → Bool

def checkUnique (indexes : List (Index ρ)) (rows : List ρ) (row : ρ) : Except Error Unit :=
  match indexes.find? fun i => rows.any (i.agree row) with
  | some i => .error (.duplicate ("UNIQUE constraint failed: " ++ i.columns))
  | none => .ok ()

def checkReference (holds : Bool) : Except Error Unit :=
  if holds || !Database.enforcesReferences then .ok () else .error (.storage .reference)

theorem checkReference_eq (holds : Bool) :
    checkReference holds = if holds then .ok () else .error (.storage .reference) := by
  simp [checkReference, Database.enforcesReferences]

def readColumn (text : String) : Json.Value :=
  match Json.read text with
  | .ok v => v
  | .error _ => .null

namespace Tables

def empty : Tables := ⟨[], [], [], [], [], [], [], [], [], [], []⟩

def platformIndexes : List (Index PlatformRow) := [
  ⟨"platforms.name", fun a b => a.name == b.name⟩, ⟨"platforms.id", fun a b => a.id == b.id⟩]

def platformProtocolIndexes : List (Index PlatformProtocolRow) := [
  ⟨"platform_protocols.platform_id, platform_protocols.name",
    fun a b => a.platformId == b.platformId && a.protocol.name == b.protocol.name⟩]

def assetIndexes : List (Index AssetRow) := [⟨"assets.id", fun a b => a.id == b.id⟩]

def assetProtocolIndexes : List (Index AssetProtocolRow) := [
  ⟨"asset_protocols.asset_id, asset_protocols.name",
    fun a b => a.assetId == b.assetId && a.name == b.name⟩]

def nodeIndexes : List (Index Node) := [
  ⟨"nodes.full_value", fun a b => a.fullValue == b.fullValue⟩,
  ⟨"nodes.id", fun a b => a.id == b.id⟩]

def templateIndexes : List (Index Template) := [
  ⟨"account_templates.org_id, account_templates.name",
    fun a b => a.orgId == b.orgId && a.name == b.name⟩,
  ⟨"account_templates.id", fun a b => a.id == b.id⟩]

/-- The indexes that a change of name, username or secret type touches. -/
def accountIndexes : List (Index Account) := [
  ⟨"accounts.asset_id, accounts.username, accounts.secret_type",
    fun a b => a.assetId == b.assetId && a.username == b.username && a.secretType == b.secretType⟩,
  ⟨"accounts.asset_id, accounts.name", fun a b => a.assetId == b.assetId && a.name == b.name⟩]

def accountIdIndex : Index Account := ⟨"accounts.id", fun a b => a.id == b.id⟩

def hasPlatform (t : Tables) (id : String) : Bool := t.platforms.any (·.id == id)

def hasAsset (t : Tables) (id : String) : Bool := t.assets.any (·.id == id)

def hasNode (t : Tables) (id : String) : Bool := t.nodes.any (·.id == id)

def hasAccount (t : Tables) (id : String) : Bool := t.accounts.any (·.id == id)

def insertPlatformRow (row : PlatformRow) (t : Tables) : Except Error Tables := do
  checkUnique platformIndexes t.platforms row
  return { t with platforms := t.platforms ++ [row] }

def insertPlatformProtocol (row : PlatformProtocolRow) (t : Tables) : Except Error Tables := do
  checkUnique platformProtocolIndexes t.platformProtocols row
  checkReference (t.hasPlatform row.platformId)
  return { t with platformProtocols := t.platformProtocols ++ [row] }

def insertAssetRow (row : AssetRow) (t : Tables) : Except Error Tables := do
  checkUnique assetIndexes t.assets row
  checkReference (t.hasPlatform row.platformId)
  return { t with assets := t.assets ++ [row] }

def insertAssetProtocol (row : AssetProtocolRow) (t : Tables) : Except Error Tables := do
  checkUnique assetProtocolIndexes t.assetProtocols row
  checkReference (t.hasAsset row.assetId)
  return { t with assetProtocols := t.assetProtocols ++ [row] }

def nextId (ids : List Nat) : Nat := ids.foldl max 0 + 1

def labelRow? (t : Tables) (l : Label) : Option LabelRow := t.labels.find? (·.label == l)

def ensureLabel (l : Label) (t : Tables) : Except Error Tables :=
  match t.labelRow? l with
  | some _ => .ok t
  | none => .ok { t with labels := t.labels ++ [⟨nextId (t.labels.map (·.id)), l⟩] }

def linkLabel (assetId : String) (l : Label) (t : Tables) : Except Error Tables :=
  match t.labelRow? l with
  | none => .ok t
  | some row =>
    let link : AssetLabelRow := ⟨assetId, row.id⟩
    if t.assetLabels.contains link then .ok t
    else do
      checkReference (t.hasAsset assetId)
      return { t with assetLabels := t.assetLabels ++ [link] }

def linkNode (assetId nodeId : String) (t : Tables) : Except Error Tables :=
  let link : AssetNodeRow := ⟨assetId, nodeId⟩
  if t.assetNodes.contains link then .ok t
  else do
    checkReference (t.hasAsset assetId && t.hasNode nodeId)
    return { t with assetNodes := t.assetNodes ++ [link] }

/-- Deletes the asset's row and, with it, the rows that belong to it; other accounts lose their
reference to a deleted one. -/
def deleteAsset (id : String) (t : Tables) : Bool × Tables :=
  if t.hasAsset id then
    let gone := (t.accounts.filter (·.assetId == id)).map (·.id)
    (true, { t with
      assets := t.assets.filter (·.id != id)
      assetProtocols := t.assetProtocols.filter (·.assetId != id)
      assetLabels := t.assetLabels.filter (·.assetId != id)
      assetNodes := t.assetNodes.filter (·.assetId != id)
      accounts := (t.accounts.filter (·.assetId != id)).map fun a =>
        { a with suFrom := a.suFrom.filter fun s => !gone.contains s } })
  else (false, t)

def insertNode (n : Node) (t : Tables) : Except Error Tables := do
  checkUnique nodeIndexes t.nodes n
  checkReference (n.parentId.all fun p => p == n.id || t.hasNode p)
  return { t with nodes := t.nodes ++ [n] }

def insertTemplate (u : Template) (t : Tables) : Except Error Tables := do
  checkUnique templateIndexes t.templates u
  return { t with templates := t.templates ++ [u] }

def insertAccount (a : Account) (t : Tables) : Except Error Tables := do
  checkUnique (accountIndexes ++ [accountIdIndex]) t.accounts a
  checkReference (t.hasAsset a.assetId && a.suFrom.all fun s => s == a.id || t.hasAccount s)
  return { t with accounts := t.accounts ++ [a] }

/-- Changes every column but the id, the asset and the date of creation. -/
def updateAccount (a : Account) (t : Tables) : Except Error Tables :=
  match t.accounts.find? (·.id == a.id) with
  | none => .error (.notFound (.account a.id))
  | some row => do
    let row' := { a with assetId := row.assetId, dateCreated := row.dateCreated }
    checkUnique accountIndexes (t.accounts.filter (·.id != a.id)) row'
    checkReference (a.suFrom.all t.hasAccount)
    return { t with accounts := t.accounts.map fun b => if b.id == a.id then row' else b }

def insertPushTask (p : Push) (now : Time.Instant) (t : Tables) : Tables :=
  let row : PushRow :=
    ⟨nextId (t.pushTasks.map (·.id)), p.accountIds, p.params.map (·.compact), now⟩
  { t with pushTasks := t.pushTasks ++ [row] }

def PushRow.read (row : PushRow) : PushTask :=
  ⟨row.id, ⟨row.accountIds, row.params.map readColumn⟩, row.createdAt⟩

/-- Newest first, at most `limit` of them if there is a limit. -/
def listPushTasks (limit : Option Nat) (t : Tables) : List PushTask :=
  let newest := t.pushTasks.mergeSort fun a b => b.id ≤ a.id
  (match limit with
    | some n => newest.take n
    | none => newest).map PushRow.read

def clear (t : Tables) : String → Tables
  | "platforms" => { t with platforms := [] }
  | "platform_protocols" => { t with platformProtocols := [] }
  | "assets" => { t with assets := [] }
  | "asset_protocols" => { t with assetProtocols := [] }
  | "labels" => { t with labels := [] }
  | "asset_labels" => { t with assetLabels := [] }
  | "nodes" => { t with nodes := [] }
  | "asset_nodes" => { t with assetNodes := [] }
  | "account_templates" => { t with templates := [] }
  | "accounts" => { t with accounts := [] }
  | "push_tasks" => { t with pushTasks := [] }
  | _ => t

abbrev Statement := Tables → Except Error Tables

def together : List Statement → Statement
  | [], t => .ok t
  | f :: rest, t =>
    match f t with
    | .ok t' => together rest t'
    | .error e => .error e

def platformStatements (p : Platform) : List Statement :=
  insertPlatformRow
    ⟨p.id, p.name, p.category, p.type, p.charset, p.domainEnabled, p.suEnabled, p.suMethod,
      { p.automation with ansibleConfig := none }, p.automation.ansibleConfig.map (·.compact),
      p.customFields, p.comment, p.dateCreated⟩ ::
    p.protocols.map fun q => insertPlatformProtocol ⟨p.id, q⟩

def assetStatements (a : Asset) : List Statement :=
  insertAssetRow
    ⟨a.id, a.name, a.address, a.platformId, a.category, a.type, a.domain, a.isActive, a.comment,
      a.dateCreated⟩ ::
    (a.protocols.map fun q => insertAssetProtocol ⟨a.id, q.name, q.port, q.primary⟩) ++
    (a.labels.flatMap fun l => [ensureLabel l, linkLabel a.id l]) ++
    a.nodeIds.map (linkNode a.id)

/-- A date column whose text cannot be read back gives the time of reading. -/
def readDate (clock stored : Time.Instant) : Time.Instant :=
  if stored.isPlain then stored else clock

def readPlatform (clock : Time.Instant) (t : Tables) (row : PlatformRow) : Platform where
  id := row.id
  name := row.name
  category := row.category
  type := row.type
  charset := row.charset
  domainEnabled := row.domainEnabled
  suEnabled := row.suEnabled
  suMethod := row.suMethod
  automation := { row.automation with ansibleConfig := row.ansibleConfig.map readColumn }
  protocols := (t.platformProtocols.filter (·.platformId == row.id)).map (·.protocol)
  customFields := row.customFields
  comment := row.comment
  dateCreated := readDate clock row.dateCreated

def labelsOf (t : Tables) (assetId : String) : List Label :=
  let ids := (t.assetLabels.filter (·.assetId == assetId)).map (·.labelId)
  ((t.labels.filter fun row => ids.contains row.id).map (·.label)).mergeSort Label.le

/-- Only name, port and primary mark of an asset's protocols are columns. -/
def readAsset (clock : Time.Instant) (t : Tables) (row : AssetRow) : Asset where
  id := row.id
  name := row.name
  address := row.address
  platformId := row.platformId
  category := row.category
  type := row.type
  domain := row.domain
  isActive := row.isActive
  comment := row.comment
  protocols := Asset.sortProtocols ((t.assetProtocols.filter (·.assetId == row.id)).map fun q =>
    ⟨q.name, q.port, q.primary, false, false, .empty⟩)
  labels := t.labelsOf row.id
  nodeIds := ((t.assetNodes.filter (·.assetId == row.id)).map (·.nodeId)).mergeSort
    fun a b => a ≤ b
  dateCreated := readDate clock row.dateCreated

def readAccount (clock : Time.Instant) (a : Account) : Account :=
  { a with
    dateCreated := readDate clock a.dateCreated, dateUpdated := readDate clock a.dateUpdated }

def readTemplate (clock : Time.Instant) (t : Template) : Template :=
  { t with
    dateCreated := readDate clock t.dateCreated, dateUpdated := readDate clock t.dateUpdated }

end Tables

end Store

end Custody
