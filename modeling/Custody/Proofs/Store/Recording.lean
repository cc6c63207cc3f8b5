import Custody.Proofs.Store.Accounts

/-!
A store that keeps a record of the accounts which it was asked to insert. Nothing takes a record
back, so a request that was refused or rolled back is still there to be counted.
-/
namespace Custody.Store

structure Recording (σ : Type) where
  inner : σ
  /-- Oldest first. -/
  asked : List Account

namespace Recording

variable {σ : Type}

def onInner {α : Type} (f : σ → α × σ) (s : Recording σ) : α × Recording σ :=
  let (a, inner) := f s.inner
  (a, { s with inner := inner })

instance [Store σ] : Store (Recording σ) where
  enter s := { s with inner := Store.enter s.inner }
  commit s := { s with inner := Store.commit s.inner }
  revert entry s := { s with inner := Store.revert entry.inner s.inner }
  insertPlatform p := onInner (Store.insertPlatform p)
  platform? s := Store.platform? s.inner
  platforms s := Store.platforms s.inner
  insertAsset a := onInner (Store.insertAsset a)
  asset? s := Store.asset? s.inner
  assets s := Store.assets s.inner
  deleteAsset id := onInner (Store.deleteAsset id)
  node? s := Store.node? s.inner
  insertNode n := onInner (Store.insertNode n)
  insertTemplate t := onInner (Store.insertTemplate t)
  template? s := Store.template? s.inner
  templates s := Store.templates s.inner
  deleteTemplate id := onInner (Store.deleteTemplate id)
  insertAccount a s := onInner (Store.insertAccount a) { s with asked := s.asked ++ [a] }
  updateAccount a := onInner (Store.updateAccount a)
  account? s := Store.account? s.inner
  accounts s := Store.accounts s.inner
  accountByName? s := Store.accountByName? s.inner
  accountBySlot? s := Store.accountBySlot? s.inner
  enqueue p now s := { s with inner := Store.enqueue p now s.inner }

variable [Store σ]

theorem enter_eq (s : Recording σ) : Store.enter s = ⟨Store.enter s.inner, s.asked⟩ := rfl

theorem insertAccount_eq (a : Account) (s : σ) (asked : List Account) :
    Store.insertAccount a (⟨s, asked⟩ : Recording σ) =
      ((Store.insertAccount a s).1, ⟨(Store.insertAccount a s).2, asked ++ [a]⟩) := rfl

def beside {α : Type} (asked : List Account) (r : Except Error α × World σ) :
    Except Error α × World (Recording σ) := (r.1, ⟨⟨r.2.store, asked⟩, r.2.supply⟩)

theorem transaction_write {α : Type} {f : σ → Except Error α × σ}
    (h : Run.transaction (Run.write f) = Run.write f) (note : List Account → List Account) :
    Run.transaction (Run.write fun s : Recording σ => onInner f { s with asked := note s.asked }) =
      Run.write fun s => onInner f { s with asked := note s.asked } := by
  funext w
  have hblock : Run.transaction
      (Run.write fun s : Recording σ => onInner f { s with asked := note s.asked }) w =
      beside (note w.store.asked) (Run.transaction (Run.write f) ⟨w.store.inner, w.supply⟩) := by
    unfold Run.transaction Run.write beside
    simp only [enter_eq, onInner]
    cases f (Store.enter w.store.inner) with
    | mk r t => cases r <;> rfl
  rw [hblock, h]
  rfl

theorem seamless (hs : Seamless σ) : Seamless (Recording σ) where
  commit_enter s := congrArg (Recording.mk · s.asked) (hs.commit_enter s.inner)
  revert_enter s := congrArg (Recording.mk · s.asked) (hs.revert_enter s.inner)
  slot s := hs.slot s.inner
  name s := hs.name s.inner
  insert a := transaction_write (hs.insert a) (· ++ [a])
  update a := transaction_write (hs.update a) id

end Recording

end Custody.Store
