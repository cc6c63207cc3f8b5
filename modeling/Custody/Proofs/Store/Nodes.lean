import Custody.Proofs.Store.Ledger

/-!
What the calls do to the nodes of a store: one call adds a node, all others leave the nodes as they
are. A node with a new id at a new path is taken, once its parent is there.
-/
namespace Custody.Store

/-- What the calls do to the nodes, on stores of which `good` holds. -/
structure Grove {σ : Type} [Store σ] (good : σ → Prop) (nodes : σ → List Node) : Prop where
  reverting : Reverting fun s s' : σ => good s → good s' ∧ nodes s' = nodes s
  enter : ∀ {s : σ}, good s → good (Store.enter s) ∧ nodes (Store.enter s) = nodes s
  commit : ∀ {s : σ}, good s → good (Store.commit s) ∧ nodes (Store.commit s) = nodes s
  aside : ∀ {c : Call} {s : σ}, ¬ c.Plants → good s →
    good (c.run s).2 ∧ nodes (c.run s).2 = nodes s
  node? : ∀ {s : σ} {path : String} {n : Node}, good s →
    (Store.node? s path = some n ↔ n ∈ nodes s ∧ n.fullValue = path)
  insert : ∀ {s : σ} {n : Node}, good s → (∀ m ∈ nodes s, m.fullValue ≠ n.fullValue ∧ m.id ≠ n.id) →
    (∀ p, n.parentId = some p → ∃ m ∈ nodes s, m.id = p) →
    ∃ s', insertNode n s = (.ok (), s') ∧ good s' ∧ (nodes s').Perm (n :: nodes s)

namespace Memory

def nodes (m : Memory) : List Node := m.records.nodes.values

theorem aside_nodes {c : Call} (hc : ¬ c.Plants) (m : Memory) : (c.run m).2.nodes = m.nodes := by
  have guarded {f : Records → Except Error Records}
      (hf : ∀ r, f m.records = .ok r → r.nodes = m.records.nodes) :
      (Memory.guarded f m).2.nodes = m.nodes :=
    congrArg Keyed.values (guarded_keeps (I := fun r => r.nodes = m.records.nodes) rfl hf)
  cases c with
  | insertPlatform p =>
    refine guarded fun r hr => ?_
    obtain ⟨-, -, rfl⟩ := Records.insertPlatform_eq_ok_iff.mp hr
    rfl
  | insertAsset a =>
    refine guarded fun r hr => ?_
    obtain ⟨-, -, rfl⟩ := Records.insertAsset_eq_ok_iff.mp hr
    rfl
  | deleteAsset id =>
    change (m.records.deleteAsset id).2.nodes.values = _
    unfold Records.deleteAsset
    split <;> rfl
  | insertNode n => exact absurd trivial hc
  | insertTemplate t =>
    refine guarded fun r hr => ?_
    obtain ⟨-, rfl⟩ := Records.insertTemplate_eq_ok_iff.mp hr
    rfl
  | deleteTemplate id => rfl
  | insertAccount a =>
    refine guarded fun r hr => ?_
    obtain ⟨-, -, -, rfl⟩ := Records.insertAccount_eq_ok_iff.mp hr
    rfl
  | updateAccount a =>
    refine guarded fun r hr => ?_
    obtain ⟨-, -, rfl⟩ := Records.updateAccount_eq_ok_iff.mp hr
    rfl
  | enqueue p now => rfl

theorem grove : Grove (fun m : Memory => m.records.Filed ∧ m.records.Unique) nodes where
  reverting := reverting.mono fun m m' hsame h => by
    have hrecords : m'.records = m.records := hsame
    exact ⟨hrecords ▸ h, congrArg (·.nodes.values) hrecords⟩
  enter h := ⟨h, rfl⟩
  commit h := ⟨h, rfl⟩
  aside {c m} hc h :=
    ⟨⟨h.1.step (call_step c m), h.2.step h.1 (call_step c m)⟩, aside_nodes hc m⟩
  node? h := Rows.find?_key_eq_some_iff h.2.nodePaths
  insert {m n} h hfree _ := by
    have hnone : m.records.node? n.fullValue = none :=
      Rows.find?_key_eq_none_iff.mpr fun k hk => (hfree k hk).1
    have hstep := Records.Step.insertNode n hnone
    refine ⟨_, guarded_of_ok (Records.insertNode_eq_ok_iff.mpr ⟨hnone, rfl⟩),
      ⟨h.1.step hstep, h.2.step h.1 hstep⟩, ?_⟩
    exact h.1.nodes.values_place_new fun k hk => (hfree k hk).2

end Memory

namespace Relational

def nodes (s : Relational) : List Node := s.tables.nodes

theorem aside_nodes {c : Call} (hc : ¬ c.Plants) (s : Relational) :
    (c.run s).2.nodes = s.nodes := by
  have guarded {f : Tables.Statement} (hf : f.Keeps (·.nodes)) :
      (Relational.guarded f s).2.nodes = s.nodes := guarded_keeps hf s
  cases c with
  | insertPlatform p =>
    exact congrArg Prod.fst (performAll_keeps (Tables.uncatalogued_platformStatements p) s)
  | insertAsset a =>
    exact congrArg Prod.fst (performAll_keeps (Tables.uncatalogued_assetStatements a) s)
  | deleteAsset id =>
    change (s.tables.deleteAsset id).2.nodes = _
    unfold Tables.deleteAsset
    split <;> rfl
  | insertNode n => exact absurd trivial hc
  | insertTemplate u =>
    refine guarded fun t t' h => ?_
    obtain ⟨-, rfl⟩ := Tables.insertTemplate_eq_ok_iff.mp h
    rfl
  | deleteTemplate id => rfl
  | insertAccount a =>
    refine guarded fun t t' h => ?_
    obtain ⟨-, -, -, -, rfl⟩ := Tables.insertAccount_eq_ok_iff.mp h
    rfl
  | updateAccount a =>
    refine guarded fun t t' h => ?_
    obtain ⟨-, -, -, -, rfl⟩ := Tables.updateAccount_eq_ok_iff.mp h
    rfl
  | enqueue p now => rfl

theorem grove : Grove (fun s : Relational => s.tables.Valid) nodes where
  reverting := reverting.mono fun s s' hsame h => by
    rw [hsame]
    exact ⟨h, rfl⟩
  enter h := ⟨h, rfl⟩
  commit h := ⟨h, rfl⟩
  aside {c s} hc h := ⟨call_invariant (fun _ _ => .step) c s h, aside_nodes hc s⟩
  node? h := Rows.find?_key_eq_some_iff h.keys.nodePaths
  insert {s n} h hfree hparent := by
    have hok := Tables.insertNode_eq_ok_iff.mpr
      ⟨fun m hm => ⟨(hfree m hm).1.symm, (hfree m hm).2.symm⟩,
        fun p hp => .inr (Tables.hasNode_iff.mpr (hparent p hp)), rfl⟩
    exact ⟨_, guarded_of_ok hok, h.statement (Tables.sound_insertNode n) hok,
      List.perm_append_singleton n s.tables.nodes⟩

end Relational

end Custody.Store
