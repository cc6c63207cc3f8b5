import Custody.Store

/-!
A store that is read and never written: every write is refused before anything else is checked.
-/
namespace Custody.Store

structure ReadOnly (σ : Type) where
  inner : σ

namespace ReadOnly

variable {σ : Type}

def refuse (s : ReadOnly σ) : Except Error α × ReadOnly σ := (.error (.storage .readOnly), s)

instance [Store σ] : Store (ReadOnly σ) where
  enter s := s
  commit s := s
  revert _ s := s
  insertPlatform _ := refuse
  platform? s := Store.platform? s.inner
  platforms s := Store.platforms s.inner
  insertAsset _ := refuse
  asset? s := Store.asset? s.inner
  assets s := Store.assets s.inner
  deleteAsset _ := refuse
  node? s := Store.node? s.inner
  insertNode _ := refuse
  insertTemplate _ := refuse
  template? s := Store.template? s.inner
  templates s := Store.templates s.inner
  deleteTemplate _ := refuse
  insertAccount _ := refuse
  updateAccount _ := refuse
  account? s := Store.account? s.inner
  accounts s := Store.accounts s.inner
  accountByName? s := Store.accountByName? s.inner
  accountBySlot? s := Store.accountBySlot? s.inner
  enqueue _ _ s := s

end ReadOnly

end Custody.Store
