import Custody.Proofs.Store.Ledger

/-!
What account calls leave as it is. They write accounts and queue pushes; a record of any other kind
is found and listed after them as it was before.
-/
namespace Custody.Store

open Run

/-- But for their accounts and their pushes, the stores hold the same. -/
structure SameElsewhere {σ : Type} [Store σ] (s s' : σ) : Prop where
  platform : Store.platform? s' = Store.platform? s
  platforms : Store.platforms s' = Store.platforms s
  asset : Store.asset? s' = Store.asset? s
  assets : Store.assets s' = Store.assets s
  node : Store.node? s' = Store.node? s
  template : Store.template? s' = Store.template? s
  templates : Store.templates s' = Store.templates s

namespace SameElsewhere

variable {σ : Type} [Store σ] {s s' s'' : σ}

theorem refl (s : σ) : SameElsewhere s s := ⟨rfl, rfl, rfl, rfl, rfl, rfl, rfl⟩

theorem trans (h : SameElsewhere s s') (h' : SameElsewhere s' s'') : SameElsewhere s s'' where
  platform := h'.platform.trans h.platform
  platforms := h'.platforms.trans h.platforms
  asset := h'.asset.trans h.asset
  assets := h'.assets.trans h.assets
  node := h'.node.trans h.node
  template := h'.template.trans h.template
  templates := h'.templates.trans h.templates

end SameElsewhere

namespace Memory

def elsewhere (r : Records) : Records := { r with accounts := [] }

def AlikeElsewhere (r r' : Records) : Prop := elsewhere r' = elsewhere r

theorem sameElsewhere_of_eq {m m' : Memory} (h : AlikeElsewhere m.records m'.records) :
    SameElsewhere m m' := by
  -- The look-ups of other records read no more than this.
  have hread (m : Memory) : SameElsewhere m ⟨elsewhere m.records, []⟩ ∧
      SameElsewhere ⟨elsewhere m.records, []⟩ m :=
    ⟨⟨rfl, rfl, rfl, rfl, rfl, rfl, rfl⟩, ⟨rfl, rfl, rfl, rfl, rfl, rfl, rfl⟩⟩
  refine (hread m).1.trans ?_
  rw [← h]
  exact (hread m').2

theorem sameElsewhere_call {c : Call} (hc : c.OnAccounts) (m : Memory) :
    SameElsewhere m (c.run m).2 := by
  refine sameElsewhere_of_eq ?_
  cases c with
  | insertAccount a =>
    refine guarded_keeps (I := AlikeElsewhere m.records) rfl fun r hr => ?_
    obtain ⟨_, _, _, rfl⟩ := Records.insertAccount_eq_ok_iff.mp hr
    rfl
  | updateAccount a =>
    refine guarded_keeps (I := AlikeElsewhere m.records) rfl fun r hr => ?_
    obtain ⟨_, _, rfl⟩ := Records.updateAccount_eq_ok_iff.mp hr
    rfl
  | enqueue p now => rfl
  | _ => exact hc.elim

theorem enclosing_onAccounts :
    Enclosing Call.OnAccounts fun w w' : World Memory => SameElsewhere w.store w'.store :=
  (reverting.mono fun _ _ h => sameElsewhere_of_eq (congrArg elsewhere h)).enclosing .trans .refl
    .refl fun _ m hc => sameElsewhere_call hc m

end Memory

namespace Relational

def elsewhere (t : Tables) : Tables := { t with accounts := [], pushTasks := [] }

theorem sameElsewhere_of_eq {s s' : Relational} (htables : elsewhere s'.tables = elsewhere s.tables)
    (hclock : s'.clock = s.clock) : SameElsewhere s s' := by
  have hread (s : Relational) : SameElsewhere s ⟨elsewhere s.tables, [], s.clock⟩ ∧
      SameElsewhere ⟨elsewhere s.tables, [], s.clock⟩ s :=
    ⟨⟨rfl, rfl, rfl, rfl, rfl, rfl, rfl⟩, ⟨rfl, rfl, rfl, rfl, rfl, rfl, rfl⟩⟩
  refine (hread s).1.trans ?_
  rw [← htables, ← hclock]
  exact (hread s').2

theorem sameElsewhere_call {c : Call} (hc : c.OnAccounts) (s : Relational) :
    SameElsewhere s (c.run s).2 := by
  refine sameElsewhere_of_eq ?_ (call_clock c s)
  cases c with
  | insertAccount a => exact guarded_keeps (Tables.keeps_insertAccount (fun _ _ => rfl) a) s
  | updateAccount a => exact guarded_keeps (Tables.keeps_updateAccount (fun _ _ => rfl) a) s
  | enqueue p now => rfl
  | _ => exact hc.elim

theorem enclosing_onAccounts :
    Enclosing Call.OnAccounts fun w w' : World Relational => SameElsewhere w.store w'.store :=
  (reverting.mono fun _ _ h => h ▸ .refl _).enclosing .trans
    (fun _ => sameElsewhere_of_eq rfl rfl) (fun _ => sameElsewhere_of_eq rfl rfl)
    fun _ s hc => sameElsewhere_call hc s

end Relational

end Custody.Store
