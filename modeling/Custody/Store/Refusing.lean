import Custody.Store

/-!
A store that refuses every new account by the name constraint and counts the attempts: what the
rules meet when each name they try is taken.
-/
namespace Custody.Store

structure Refusing (σ : Type) where
  inner : σ
  attempts : Nat

namespace Refusing

variable {σ : Type}

def onInner (f : σ → α × σ) (s : Refusing σ) : α × Refusing σ :=
  let (a, inner) := f s.inner
  (a, { s with inner := inner })

instance [Store σ] : Store (Refusing σ) where
  enter s := { s with inner := Store.enter s.inner }
  commit s := { s with inner := Store.commit s.inner }
  revert entry s := { s with inner := Store.revert entry.inner s.inner }
  insertPlatform p := onInner (Store.insertPlatform p)
  platform? s := Store.platform? s.inner
  platforms s := Store.platforms s.inner
  insertAsset a := onInner (Store.insertAsset a)
  asset? s := Store.asset? s.inner
  assets s := Store.assets s.inner
  deleteAsset id := onInner (Store.deleteAsset id)
  node? s := Store.node? s.inner
  insertNode n := onInner (Store.insertNode n)
  insertTemplate t := onInner (Store.insertTemplate t)
  template? s := Store.template? s.inner
  templates s := Store.templates s.inner
  deleteTemplate id := onInner (Store.deleteTemplate id)
  insertAccount _ s :=
    (.error (.duplicate "accounts.asset_id, accounts.name"), { s with attempts := s.attempts + 1 })
  updateAccount a := onInner (Store.updateAccount a)
  account? s := Store.account? s.inner
  accounts s := Store.accounts s.inner
  accountByName? s := Store.accountByName? s.inner
  accountBySlot? s := Store.accountBySlot? s.inner
  enqueue p now s := { s with inner := Store.enqueue p now s.inner }

end Refusing

end Custody.Store
