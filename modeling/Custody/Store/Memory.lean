import Custody.Store

/-!
A store in memory: records under their ids, in the order of the ids. It holds the same records
unique as the tables do. A transaction's failure restores the records; pushes stay queued.
-/
namespace Custody.Store

structure Records where
  platforms : Keyed Platform
  assets : Keyed Asset
  nodes : Keyed Node
  templates : Keyed Template
  accounts : Keyed Account

structure Memory where
  records : Records
  /-- Oldest first. -/
  pushes : List Push

namespace Records

def empty : Records := ⟨[], [], [], [], []⟩

def insertPlatform (p : Platform) (r : Records) : Except Error Records :=
  if r.platforms.contains p.id || r.platforms.values.any (·.name == p.name) then
    .error (.duplicate "platforms.name")
  else .ok { r with platforms := r.platforms.place p.id p }

def insertAsset (a : Asset) (r : Records) : Except Error Records :=
  if r.assets.contains a.id then .error (.duplicate "assets.id")
  else if !r.platforms.contains a.platformId then .error (.notFound (.platform a.platformId))
  else .ok { r with assets := r.assets.place a.id a.arranged }

def deleteAsset (id : String) (r : Records) : Bool × Records :=
  if r.assets.contains id then
    (true, { r with
      assets := r.assets.erase id
      accounts := r.accounts.filter fun (_, a) => a.assetId ≠ id })
  else (false, r)

def node? (r : Records) (fullValue : String) : Option Node :=
  r.nodes.values.find? (·.fullValue == fullValue)

def insertNode (n : Node) (r : Records) : Except Error Records :=
  if (r.node? n.fullValue).isSome then .error (.duplicate "nodes.full_value")
  else .ok { r with nodes := r.nodes.place n.id n }

def insertTemplate (t : Template) (r : Records) : Except Error Records :=
  if r.templates.values.any fun u => u.orgId == t.orgId && u.name == t.name then
    .error (.duplicate "account_templates.org_id, account_templates.name")
  else .ok { r with templates := r.templates.place t.id t }

def templatesOf (r : Records) (types : List SecretType) : List Template :=
  (r.templates.values.filter fun t => types.isEmpty || types.contains t.secretType).mergeSort
    fun a b => a.name ≤ b.name

def clashesWith (a b : Account) : Bool :=
  b.id != a.id && b.assetId == a.assetId &&
    (b.name == a.name || (b.username == a.username && b.secretType == a.secretType))

/-- The first clash in the order of the ids decides which constraint is named. -/
def checkAccount (a : Account) (r : Records) : Except Error Unit :=
  match r.accounts.values.find? (clashesWith a) with
  | none => .ok ()
  | some b =>
    if b.name = a.name then .error (.duplicate "accounts.asset_id, accounts.name")
    else .error (.duplicate "accounts.asset_id, accounts.username, accounts.secret_type")

def insertAccount (a : Account) (r : Records) : Except Error Records := do
  if r.accounts.contains a.id then .error (.duplicate "accounts.id")
  if !r.assets.contains a.assetId then .error (.notFound (.asset a.assetId))
  checkAccount a r
  return { r with accounts := r.accounts.place a.id a }

def updateAccount (a : Account) (r : Records) : Except Error Records := do
  if !r.accounts.contains a.id then .error (.notFound (.account a.id))
  checkAccount a r
  return { r with accounts := r.accounts.place a.id a }

def byAssetAndName (a b : Account) : Bool :=
  a.assetId < b.assetId || (a.assetId == b.assetId && a.name ≤ b.name)

def accountsOf (r : Records) (asset : Option String) : List Account :=
  (r.accounts.values.filter fun a => asset.all (a.assetId == ·)).mergeSort byAssetAndName

end Records

namespace Memory

def empty : Memory := ⟨.empty, []⟩

def guarded (f : Records → Except Error Records) : Memory → Except Error Unit × Memory :=
  Store.guarded fun m => (f m.records).map fun r => { m with records := r }

instance : Store Memory where
  enter m := m
  commit m := m
  revert entry m := { m with records := entry.records }
  insertPlatform p := guarded (Records.insertPlatform p)
  platform? m id := m.records.platforms.get? id
  platforms m := m.records.platforms.values.mergeSort fun a b => a.name ≤ b.name
  insertAsset a := guarded (Records.insertAsset a)
  asset? m id := m.records.assets.get? id
  assets m := m.records.assets.values.mergeSort fun a b => a.name ≤ b.name
  deleteAsset id m :=
    let (found, r) := m.records.deleteAsset id
    (.ok found, { m with records := r })
  node? m fullValue := m.records.node? fullValue
  insertNode n := guarded (Records.insertNode n)
  insertTemplate t := guarded (Records.insertTemplate t)
  template? m id := m.records.templates.get? id
  templates m types := m.records.templatesOf types
  deleteTemplate id m :=
    (.ok (m.records.templates.contains id),
      { m with records := { m.records with templates := m.records.templates.erase id } })
  insertAccount a := guarded (Records.insertAccount a)
  updateAccount a := guarded (Records.updateAccount a)
  account? m id := m.records.accounts.get? id
  accounts m asset := m.records.accountsOf asset
  accountByName? m asset name := m.records.accounts.values.find? (·.hasName asset name)
  accountBySlot? m asset username type :=
    m.records.accounts.values.find? (·.hasSlot asset username type)
  enqueue p _ m := { m with pushes := m.pushes ++ [p] }

end Memory

end Custody.Store
