import Custody.Proofs.Store.Related

/-!
What both stores list. Platforms and accounts stand in one order, since no two have the same name
there; assets and templates of one name may change places.
-/
namespace Custody.Store

/-- The stores hold the same records: whatever is asked of them, both give the same answer. -/
structure Same (m : Memory) (s : Relational) : Prop where
  platforms : Store.platforms m = Store.platforms s
  assets : (Store.assets m).Perm (Store.assets s)
  assetNames : (Store.assets m).map (·.name) = (Store.assets s).map (·.name)
  nodes : m.records.nodes.values.Perm s.tables.nodes
  templates : ∀ types, (Store.templates m types).Perm (Store.templates s types)
  templateNames : ∀ types,
    (Store.templates m types).map (·.name) = (Store.templates s types).map (·.name)
  accounts : ∀ asset, Store.accounts m asset = Store.accounts s asset
  platform? : ∀ id, Store.platform? m id = Store.platform? s id
  asset? : ∀ id, Store.asset? m id = Store.asset? s id
  node? : ∀ path, Store.node? m path = Store.node? s path
  template? : ∀ id, Store.template? m id = Store.template? s id
  account? : ∀ id, Store.account? m id = Store.account? s id
  accountByName? : ∀ asset name,
    Store.accountByName? m asset name = Store.accountByName? s asset name
  accountBySlot? : ∀ asset username type,
    Store.accountBySlot? m asset username type = Store.accountBySlot? s asset username type

theorem filter_perm_map {ρ : Type} {values rows : List ρ} {read : ρ → ρ}
    (hperm : values.Perm rows) (hread : ∀ a ∈ rows, read a = a) (p : ρ → Bool) :
    (values.filter p).Perm ((rows.filter p).map read) := by
  rw [Mirror.map_read_eq fun a ha => hread a (List.mem_filter.mp ha).1]
  exact hperm.filter p

theorem Tables.Keys.accountLabels {t : Tables} (h : t.Keys) :
    (t.accounts.map fun a => Label.mk a.assetId a.name).Nodup := by
  refine List.pairwise_map.mpr ((List.pairwise_map.mp h.accountNames).imp ?_)
  rintro a b hne heq
  obtain ⟨hasset, hname⟩ := Label.mk.inj heq
  exact hne (Prod.ext hasset hname)

namespace Related

variable {draws : Nat → Draw} {clock : Time.Instant} {reserved : List Nat} {w : World Memory}
  {v : World Relational} (h : Related draws clock reserved w v)

include h

theorem platforms : Store.platforms w.store = Store.platforms v.store := by
  have hperm := h.mirror.platforms
  rw [← h.reading] at hperm
  have hlist := linear_text.listing_eq Platform.name (fun _ => rfl) hperm
    h.mirror.valid.keys.platformNames
  exact hlist

theorem assets : (Store.assets w.store).Perm (Store.assets v.store) ∧
    (Store.assets w.store).map (·.name) = (Store.assets v.store).map (·.name) := by
  have hperm := h.mirror.assets
  rw [← h.reading] at hperm
  exact ⟨LinearLe.listing_perm hperm _ _, linear_text.listing_keys (fun _ => rfl) hperm⟩

theorem templates (types : List SecretType) :
    (Store.templates w.store types).Perm (Store.templates v.store types) ∧
      (Store.templates w.store types).map (·.name) =
        (Store.templates v.store types).map (·.name) := by
  have hdates := h.mirror.templateDates
  rw [← h.reading] at hdates
  have hperm := filter_perm_map h.mirror.templates hdates fun u =>
    types.isEmpty || types.contains u.secretType
  exact ⟨LinearLe.listing_perm hperm _ _, linear_text.listing_keys (fun _ => rfl) hperm⟩

theorem accounts (asset : Option String) :
    Store.accounts w.store asset = Store.accounts v.store asset := by
  have hdates := h.mirror.accountDates
  rw [← h.reading] at hdates
  have hperm := filter_perm_map h.mirror.accounts hdates fun a => asset.all (a.assetId == ·)
  have hlist := linear_label.listing_eq (fun a : Account => Label.mk a.assetId a.name)
    (fun _ => rfl) hperm (Rows.nodup_filter h.mirror.valid.keys.accountLabels _)
  exact hlist

theorem same : Same w.store v.store where
  platforms := h.platforms
  assets := h.assets.1
  assetNames := h.assets.2
  nodes := h.mirror.nodes
  templates types := (h.templates types).1
  templateNames types := (h.templates types).2
  accounts := h.accounts
  platform? := h.platform?
  asset? := h.asset?
  node? := h.node?
  template? := h.template?
  account? := h.account?
  accountByName? := h.accountByName?
  accountBySlot? := h.accountBySlot?

end Related

end Custody.Store
