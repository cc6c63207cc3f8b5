import Custody.Account
import Custody.Asset

/-!
What the rules need from a store, and the steps that run on one. A step reads and writes a store
and draws fresh ids, name tokens and clock readings from a supply, so a run is a function of its
store and supply alone. A failed step keeps what it has written; `transaction` takes that back.
-/
namespace Custody

/-- One draw from the outside: a fresh id, a spare one for a second attempt, a name token and the
time. -/
structure Draw where
  id : String
  spare : String
  token : String
  now : Time.Instant

structure Supply where
  draws : Nat → Draw
  used : Nat

structure Push where
  accountIds : List String
  params : Option Json.Value

class Store (σ : Type) where
  /-- Marks the entry to a transaction. -/
  enter : σ → σ
  commit : σ → σ
  /-- Takes back what was written since the entry, of which the store at that point is given. -/
  revert : σ → σ → σ
  insertPlatform : Platform → σ → Except Error Unit × σ
  platform? : σ → String → Option Platform
  platforms : σ → List Platform
  /-- Stores an asset with its protocols, labels and node links. -/
  insertAsset : Asset → σ → Except Error Unit × σ
  asset? : σ → String → Option Asset
  assets : σ → List Asset
  /-- Deletes an asset and all it owns; tells whether there was one. -/
  deleteAsset : String → σ → Except Error Bool × σ
  node? : σ → String → Option Node
  insertNode : Node → σ → Except Error Unit × σ
  insertTemplate : Template → σ → Except Error Unit × σ
  template? : σ → String → Option Template
  /-- The templates of these secret types, or all if none are given. -/
  templates : σ → List SecretType → List Template
  deleteTemplate : String → σ → Except Error Bool × σ
  insertAccount : Account → σ → Except Error Unit × σ
  updateAccount : Account → σ → Except Error Unit × σ
  account? : σ → String → Option Account
  /-- The accounts of an asset, or all. -/
  accounts : σ → Option String → List Account
  accountByName? : σ → String → String → Option Account
  accountBySlot? : σ → String → String → SecretType → Option Account
  enqueue : Push → Time.Instant → σ → σ

def Store.guarded (f : σ → Except Error σ) (s : σ) : Except Error Unit × σ :=
  match f s with
  | .ok s' => (.ok (), s')
  | .error e => (.error e, s)

structure World (σ : Type) where
  store : σ
  supply : Supply

abbrev Run (σ α : Type) := ExceptT Error (StateM (World σ)) α

namespace Run

variable {σ α : Type}

def of (r : Except Error α) : Run σ α := fun w => (r, w)

def ask (f : σ → α) : Run σ α := do return f (← get).store

def write (f : σ → Except Error α × σ) : Run σ α := fun w =>
  let (r, s) := f w.store
  (r, { w with store := s })

def lift (f : σ → α × σ) : Run σ α := write fun s => let (a, s) := f s; (.ok a, s)

def draw : Run σ Draw := fun w =>
  (.ok (w.supply.draws w.supply.used),
    { w with supply := { w.supply with used := w.supply.used + 1 } })

def require (what : Missing) : Option α → Run σ α
  | some a => pure a
  | none => throw (.notFound what)

/-- Runs the steps as one: if they fail, the store is as on entry. Blocks may nest. -/
def transaction [Store σ] (body : Run σ α) : Run σ α := fun w =>
  match body { w with store := Store.enter w.store } with
  | (.ok a, w') => (.ok a, { w' with store := Store.commit w'.store })
  | (.error e, w') => (.error e, { w' with store := Store.revert w.store w'.store })

/-- The outcome of a step as a value; what it wrote stays. -/
def caught (body : Run σ α) : Run σ (Except Error α) := fun w =>
  let (r, w') := body w
  (.ok r, w')

def rewording (f : Error → Error) (body : Run σ α) : Run σ α := fun w =>
  let (r, w') := body w
  (r.mapError f, w')

end Run

end Custody
