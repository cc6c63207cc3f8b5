import Custody.Account.Candidate

/-!
The same account on many assets, each target in a transaction of its own. The report lists created,
updated, skipped and failed targets in this order, each group in the order of the targets.
-/
namespace Custody.Bulk

structure Target where
  assetId : String
  secretTypes : SecretTypes
deriving DecidableEq

variable {σ : Type} [Store σ]

def Target.load (assetId : String) : Run σ Target := do
  let asset ← Run.require (.asset assetId) (← Run.ask fun s : σ => Store.asset? s assetId)
  let platform ← Run.require (.platform asset.platformId)
    (← Run.ask fun s : σ => Store.platform? s asset.platformId)
  return ⟨asset.id, platform.secretTypesFor (asset.protocols.map (·.name))⟩

def attempt (c : Candidate) (policy : Policy) (id : String) (now : Time.Instant) :
    Run σ (Except Error (Account × Outcome)) :=
  Run.caught (Run.transaction (c.reconcile .slot policy id now))

/-- One target: a refused name is tried once more with a token behind it. -/
def createFor (c : Candidate) (policy : Policy) (d : Draw) : Run σ Entry := do
  let first ← attempt c policy d.id d.now
  let outcome ← match first with
    | .error e =>
      if e.isDuplicate then
        attempt { c with name := Naming.suffixed c.name d.token } policy d.spare d.now
      else pure first
    | .ok _ => pure first
  match outcome with
  | .ok (a, o) => return .done c.assetId o a.id
  | .error e => return .failed c.assetId e.message

def unsupported (t : SecretType) : String :=
  "Asset does not support this secret type: " ++ Choice.wire t

def step (c : Candidate) (policy : Policy) (target : Target) (d : Draw) : Run σ Entry :=
  if c.secretType ∈ target.secretTypes then createFor (c.forAsset target.assetId) policy d
  else pure (.failed target.assetId (unsupported c.secretType))

def arrange (entries : List Entry) : List Entry :=
  entries.mergeSort fun a b => b.state.rank ≤ a.state.rank

/-- Under the error policy any failed entry fails the call; what was stored stays stored. -/
def conclude (policy : Policy) (entries : List Entry) : Except Error (List Entry) :=
  let arranged := arrange entries
  let failed := arranged.filter (·.state = .error)
  if policy = .error ∧ failed ≠ [] then .error (.bulkFailed failed) else .ok arranged

def create (c : Candidate) (targets : List (Target × Draw)) (policy : Policy) :
    Run σ (List Entry) := do
  let entries ← targets.mapM fun (target, d) => step c policy target d
  Run.of (conclude policy entries)

def createDrawing (c : Candidate) (targets : List Target) (policy : Policy) :
    Run σ (List Entry) := do
  create c (← targets.mapM fun t => do return (t, ← Run.draw)) policy

end Custody.Bulk
