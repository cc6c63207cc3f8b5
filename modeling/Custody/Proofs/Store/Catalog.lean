import Custody.Proofs.Store.Accounts
import Custody.Proofs.Store.Elsewhere
import Custody.Proofs.Store.Reading

/-!
What the calls do to the platforms and assets of a store. A record that went in is given back as it
went in until it goes, whatever else is stored; only the protocols of an asset are sorted.
-/
namespace Custody.Store

structure Shrinks {σ : Type} [Store σ] (s s' : σ) : Prop where
  platforms : platform? s' = platform? s
  assets : ∀ id a, asset? s' id = some a → asset? s id = some a

theorem Shrinks.refl {σ : Type} [Store σ] (s : σ) : Shrinks s s := ⟨rfl, fun _ _ h => h⟩

theorem Shrinks.trans {σ : Type} [Store σ] {s s' s'' : σ} (h : Shrinks s s')
    (h' : Shrinks s' s'') : Shrinks s s'' :=
  ⟨h'.platforms.trans h.platforms, fun id a ha => h.assets id a (h'.assets id a ha)⟩

theorem SameElsewhere.shrinks {σ : Type} [Store σ] {s s' : σ} (h : SameElsewhere s s') :
    Shrinks s s' := ⟨h.platform, fun _ _ ha => h.asset ▸ ha⟩

def Call.Uncatalogued : Call → Prop
  | insertPlatform _ | insertAsset _ => False
  | _ => True

section Joined

variable {α : Type} {look look' : String → Option α} {id : String} {a : α}

def Joined (look look' : String → Option α) (id : String) (a : α) : Prop :=
  ∀ key, look' key = (look key).or (if id = key then some a else none)

theorem Joined.kept (h : Joined look look' id a) {key : String} {b : α}
    (hb : look key = some b) : look' key = some b := by
  rw [h, hb]
  rfl

theorem Joined.found (h : Joined look look' id a) {key : String} {b : α}
    (hb : look' key = some b) : look key = some b ∨ b = a := by
  rw [h] at hb
  cases hlook : look key with
  | some c =>
    rw [hlook] at hb
    exact .inl hb
  | none =>
    rw [hlook, Option.none_or] at hb
    split at hb
    · exact .inr (Option.some.inj hb).symm
    · cases hb

end Joined

/-- What the calls do to platforms and assets, on stores of which `good` holds. -/
structure Catalog {σ : Type} [Store σ] (good : σ → Prop) : Prop where
  reverting : Reverting fun s s' : σ => good s → good s' ∧ Shrinks s s'
  enter : ∀ {s : σ}, good s → good (Store.enter s) ∧ Shrinks s (Store.enter s)
  commit : ∀ {s : σ}, good s → good (Store.commit s) ∧ Shrinks s (Store.commit s)
  aside : ∀ {c : Call} {s : σ}, c.Uncatalogued → good s → good (c.run s).2 ∧ Shrinks s (c.run s).2
  own : ∀ {s : σ} {id : String} {p : Platform}, good s → platform? s id = some p → p.id = id
  listed : ∀ {s : σ} {a : Asset}, good s → a ∈ Store.assets s → asset? s a.id = some a
  insertPlatform : ∀ {s s' : σ} {p : Platform}, good s → Store.insertPlatform p s = (.ok (), s') →
    good s' ∧ asset? s' = asset? s ∧
      ∃ q, q.protocols = p.protocols ∧ Joined (platform? s) (platform? s') p.id q
  insertAsset : ∀ {s s' : σ} {a : Asset}, good s → (∀ q ∈ a.protocols, q.Blank) →
    Store.insertAsset a s = (.ok (), s') →
    good s' ∧ platform? s' = platform? s ∧
      ∃ b, b.platformId = a.platformId ∧ b.protocols = Asset.sortProtocols a.protocols ∧
        Joined (asset? s) (asset? s') a.id b

def Curbed {σ : Type} [Store σ] (good : σ → Prop) (w w' : World σ) : Prop :=
  good w.store → good w'.store ∧ Shrinks w.store w'.store

theorem Catalog.enclosing {σ : Type} [Store σ] {good : σ → Prop} (L : Catalog good) :
    Run.Enclosing Call.Uncatalogued (Curbed good) :=
  L.reverting.enclosing
    (fun h h' hgood => (h' (h hgood).1).imp_right (h hgood).2.trans)
    (fun _ => L.enter) (fun _ => L.commit) fun _ _ => L.aside

theorem Call.OnAccounts.uncatalogued {c : Call} (h : c.OnAccounts) : c.Uncatalogued := by
  cases c with
  | insertPlatform | insertAsset => exact h.elim
  | _ => trivial

theorem Records.deleteAsset_catalog {r : Records} (hr : r.Filed) (id : String) :
    (r.deleteAsset id).2.platforms = r.platforms ∧
      ∀ key a, (r.deleteAsset id).2.assets.get? key = some a → r.assets.get? key = some a := by
  unfold Records.deleteAsset
  split
  · refine ⟨rfl, fun key a h => ?_⟩
    obtain ⟨ha, hkey⟩ := (hr.assets.erase id).get?_eq_some_iff.mp h
    obtain ⟨n, hn, rfl⟩ := List.mem_map.mp ha
    exact hr.assets.get?_eq_some_iff.mpr ⟨List.mem_map_of_mem (List.mem_filter.mp hn).1, hkey⟩
  · exact ⟨rfl, fun _ _ h => h⟩

namespace Memory

theorem joined_place {α : Type} {o : Keyed α} {id : String} (hid : o.contains id = false) (a : α) :
    Joined o.get? (o.place id a).get? id a := by
  intro key
  rw [Keyed.get?_place]
  by_cases hkey : key = id
  · have hnone : o.get? id = none := Option.not_isSome_iff_eq_none.mp (Bool.eq_false_iff.mp hid)
    rw [if_pos hkey, if_pos hkey.symm, hkey, hnone, Option.none_or]
  · rw [if_neg hkey, if_neg (Ne.symm hkey), Option.or_none]

theorem shrinks_of_erase {m : Memory} {r : Records}
    (hplatforms : r.platforms = m.records.platforms)
    (hassets : ∀ id a, r.assets.get? id = some a → m.records.assets.get? id = some a) :
    Shrinks m { m with records := r } :=
  ⟨funext fun id => congrArg (Keyed.get? · id) hplatforms, hassets⟩

theorem shrinks_guarded {f : Records → Except Error Records} {m : Memory}
    (hf : ∀ r, f m.records = .ok r →
      r.platforms = m.records.platforms ∧ r.assets = m.records.assets) :
    Shrinks m (guarded f m).2 := by
  cases hr : f m.records with
  | error e =>
    rw [guarded_of_error hr]
    exact .refl m
  | ok r =>
    rw [guarded_of_ok hr]
    obtain ⟨hplatforms, hassets⟩ := hf r hr
    exact shrinks_of_erase hplatforms fun id a h => hassets ▸ h

theorem aside_shrinks {c : Call} (hc : c.Uncatalogued) {m : Memory} (hm : m.records.Filed) :
    Shrinks m (c.run m).2 := by
  by_cases honAccounts : c.OnAccounts
  · exact (sameElsewhere_call honAccounts m).shrinks
  cases c with
  | insertNode n =>
    refine shrinks_guarded fun r hr => ?_
    obtain ⟨_, rfl⟩ := Records.insertNode_eq_ok_iff.mp hr
    exact ⟨rfl, rfl⟩
  | insertTemplate u =>
    refine shrinks_guarded fun r hr => ?_
    obtain ⟨_, rfl⟩ := Records.insertTemplate_eq_ok_iff.mp hr
    exact ⟨rfl, rfl⟩
  | deleteAsset id =>
    obtain ⟨hplatforms, hassets⟩ := Records.deleteAsset_catalog hm id
    exact shrinks_of_erase hplatforms hassets
  | deleteTemplate id => exact ⟨rfl, fun _ _ h => h⟩
  | insertAccount | updateAccount | enqueue => exact absurd trivial honAccounts
  | insertPlatform | insertAsset => exact hc.elim

theorem catalog : Catalog fun m : Memory => m.records.Filed where
  reverting := reverting.mono fun m m' hsame hm => by
    have hrecords : m'.records = m.records := hsame
    exact ⟨hrecords ▸ hm, (sameElsewhere_of_eq (congrArg elsewhere hrecords)).shrinks⟩
  enter h := ⟨h, .refl _⟩
  commit h := ⟨h, .refl _⟩
  aside {c m} hc hm := ⟨hm.step (call_step c m), aside_shrinks hc hm⟩
  own hm h := (hm.platforms.get?_eq_some_iff.mp h).2
  listed hm h := hm.assets.get?_eq_some_iff.mpr ⟨List.mem_mergeSort.mp h, rfl⟩
  insertPlatform {m m' p} hm h := by
    obtain ⟨r, hr, rfl⟩ := eq_ok_of_guarded h
    obtain ⟨hid, hname, rfl⟩ := Records.insertPlatform_eq_ok_iff.mp hr
    exact ⟨hm.step (.insertPlatform p hid hname), rfl, p, rfl, joined_place hid p⟩
  insertAsset {m m' a} hm _ h := by
    obtain ⟨r, hr, rfl⟩ := eq_ok_of_guarded h
    obtain ⟨hid, hplatform, rfl⟩ := Records.insertAsset_eq_ok_iff.mp hr
    exact ⟨hm.step (.insertAsset a hid hplatform), rfl, a.arranged, rfl, rfl, joined_place hid _⟩

end Memory

namespace Tables

variable {t : Tables}

def catalogued (t : Tables) : Tables :=
  { t with nodes := [], templates := [], accounts := [], pushTasks := [] }

theorem catalogued_insertNode (n : Node) : Statement.Keeps catalogued (insertNode n) := by
  intro t t' h
  obtain ⟨_, _, rfl⟩ := insertNode_eq_ok_iff.mp h
  rfl

theorem catalogued_insertTemplate (u : Template) :
    Statement.Keeps catalogued (insertTemplate u) := by
  intro t t' h
  obtain ⟨_, rfl⟩ := insertTemplate_eq_ok_iff.mp h
  rfl

theorem deleteAsset_platforms (t : Tables) (id : String) :
    (t.deleteAsset id).2.platforms = t.platforms ∧
      (t.deleteAsset id).2.platformProtocols = t.platformProtocols := by
  unfold deleteAsset
  split <;> exact ⟨rfl, rfl⟩

theorem mem_assets_deleteAsset {id : String} {row : AssetRow}
    (h : row ∈ (t.deleteAsset id).2.assets) : row ∈ t.assets ∧ row.id ≠ id := by
  unfold deleteAsset at h
  split at h
  · obtain ⟨hmem, hne⟩ := List.mem_filter.mp h
    exact ⟨hmem, bne_iff_ne.mp hne⟩
  · next habsent => exact ⟨h, fun heq => habsent (hasAsset_iff.mpr ⟨row, h, heq⟩)⟩

end Tables

namespace Relational

section Catalogued

variable {s s' : Relational} (htables : s'.tables.catalogued = s.tables.catalogued)
  (hclock : s'.clock = s.clock)

include htables hclock

theorem platform?_of_catalogued : platform? s' = platform? s := by
  have hread (s : Relational) (id : String) : platform? s id =
      (s.tables.catalogued.platforms.find? (·.id == id)).map
        (Tables.readPlatform s.clock s.tables.catalogued) := rfl
  funext id
  rw [hread, hread, htables, hclock]

theorem asset?_of_catalogued : asset? s' = asset? s := by
  have hread (s : Relational) (id : String) : asset? s id =
      (s.tables.catalogued.assets.find? (·.id == id)).map
        (Tables.readAsset s.clock s.tables.catalogued) := rfl
  funext id
  rw [hread, hread, htables, hclock]

theorem shrinks_of_catalogued : Shrinks s s' :=
  ⟨platform?_of_catalogued htables hclock, fun _ _ h =>
    asset?_of_catalogued htables hclock ▸ h⟩

end Catalogued

theorem mem_of_asset? {s : Relational} {id : String} {a : Asset} (h : asset? s id = some a) :
    ∃ row ∈ s.tables.assets, row.id = id ∧ Tables.readAsset s.clock s.tables row = a := by
  obtain ⟨row, hrow, hread⟩ := Option.map_eq_some_iff.mp h
  have hid := List.find?_some (p := fun r : AssetRow => r.id == id) hrow
  exact ⟨row, List.mem_of_find?_eq_some hrow, eq_of_beq hid, hread⟩

theorem asset?_of_mem {s : Relational} (hs : s.tables.Keys) {row : AssetRow}
    (hrow : row ∈ s.tables.assets) :
    asset? s row.id = some (Tables.readAsset s.clock s.tables row) := by
  have hfind : s.tables.assets.find? (·.id == row.id) = some row :=
    (Rows.find?_key_eq_some_iff hs.assetIds).mpr ⟨hrow, rfl⟩
  exact congrArg (Option.map (Tables.readAsset s.clock s.tables)) hfind

theorem shrinks_deleteAsset {s : Relational} (hs : s.tables.Valid) (id : String) :
    Shrinks s ((Call.deleteAsset id).run s).2 := by
  obtain ⟨hplatforms, hprotocols⟩ := Tables.deleteAsset_platforms s.tables id
  have hread : Tables.readPlatform s.clock (s.tables.deleteAsset id).2 =
      Tables.readPlatform s.clock s.tables := by
    funext row
    simp only [Tables.readPlatform, hprotocols]
  refine ⟨funext fun key => ?_, fun key a h => ?_⟩
  · change ((s.tables.deleteAsset id).2.platforms.find? _).map
      (Tables.readPlatform s.clock (s.tables.deleteAsset id).2) = _
    rw [hread, hplatforms]
    rfl
  · obtain ⟨row, hrow, rfl, rfl⟩ := mem_of_asset? h
    obtain ⟨hmem, hne⟩ := Tables.mem_assets_deleteAsset hrow
    rw [asset?_of_mem hs.keys hmem]
    exact congrArg some (Tables.readAsset_deleteAsset hs s.clock hne).symm

theorem aside_shrinks {c : Call} (hc : c.Uncatalogued) {s : Relational} (hs : s.tables.Valid) :
    Shrinks s (c.run s).2 := by
  by_cases honAccounts : c.OnAccounts
  · exact (sameElsewhere_call honAccounts s).shrinks
  have unread (h : (c.run s).2.tables.catalogued = s.tables.catalogued) :
      Shrinks s (c.run s).2 := shrinks_of_catalogued h (call_clock c s)
  cases c with
  | insertNode n => exact unread (guarded_keeps (Tables.catalogued_insertNode n) s)
  | insertTemplate u => exact unread (guarded_keeps (Tables.catalogued_insertTemplate u) s)
  | deleteAsset id => exact shrinks_deleteAsset hs id
  | deleteTemplate id => exact unread rfl
  | insertAccount | updateAccount | enqueue => exact absurd trivial honAccounts
  | insertPlatform | insertAsset => exact hc.elim

theorem joined_append {ρ α : Type} {rows : List ρ} (ident : ρ → String) {read read' : ρ → α}
    (hread : ∀ r ∈ rows, read' r = read r) (row : ρ) :
    Joined (fun key => (rows.find? (ident · == key)).map read)
      (fun key => ((rows ++ [row]).find? (ident · == key)).map read') (ident row) (read' row) := by
  intro key
  dsimp only
  rw [List.find?_append]
  cases hfound : rows.find? (ident · == key) with
  | some r => exact congrArg some (hread r (List.mem_of_find?_eq_some hfound))
  | none =>
    by_cases hkey : ident row = key
    · simp [hkey]
    · simp [hkey]

theorem catalog : Catalog fun s : Relational => s.tables.Valid where
  reverting := reverting.mono fun s s' hsame hs => by
    rw [hsame]
    exact ⟨hs, .refl s⟩
  enter h := ⟨h, rfl, fun _ _ h => h⟩
  commit h := ⟨h, rfl, fun _ _ h => h⟩
  aside {c s} hc hs :=
    ⟨call_invariant (fun _ _ => Tables.Valid.step) c s hs, aside_shrinks hc hs⟩
  own {s id p} _ h := by
    obtain ⟨row, hrow, rfl⟩ := Option.map_eq_some_iff.mp h
    have hid := List.find?_some (p := fun r : PlatformRow => r.id == id) hrow
    exact eq_of_beq hid
  listed {s a} hs h := by
    obtain ⟨row, hrow, rfl⟩ := List.mem_map.mp h
    exact asset?_of_mem hs.keys (List.mem_mergeSort.mp hrow)
  insertPlatform {s s' p} hs h := by
    have hguarded := (performAll_eq (Tables.platformStatements p) s).symm.trans h
    obtain ⟨t, ht, rfl⟩ := eq_ok_of_guarded hguarded
    have hvalid := hs.together (Tables.sound_platformStatements p) ht
    obtain ⟨heq, hold, hnew⟩ := Tables.insertPlatform_reads hs s.clock ht
    have hplatforms : t.platforms = s.tables.platforms ++ [Tables.platformRow p] := by rw [heq]
    have hjoined := joined_append (ρ := PlatformRow) (·.id) hold (Tables.platformRow p)
    rw [← hplatforms, hnew] at hjoined
    exact ⟨hvalid, by rw [heq]; rfl, Tables.rereadPlatform s.clock p, rfl, hjoined⟩
  insertAsset {s s' a} hs hblank h := by
    have hguarded := (performAll_eq (Tables.assetStatements a) s).symm.trans h
    obtain ⟨t, ht, rfl⟩ := eq_ok_of_guarded hguarded
    obtain ⟨hid, hplatform, hnames, hnodes⟩ := Tables.fits_of_together hs ht
    obtain ⟨_, _, _, u, hu, heq, hvalid, hold, hnew⟩ :=
      Tables.insertAsset_reads hs s.clock hid hplatform hnames hblank hnodes
    obtain rfl := Except.ok.inj (hu.symm.trans ht)
    have hassets : u.assets = s.tables.assets ++ [Tables.assetRow a] := by rw [heq]
    have hjoined := joined_append (ρ := AssetRow) (·.id) hold (Tables.assetRow a)
    rw [← hassets, hnew] at hjoined
    exact ⟨hvalid, by rw [heq]; rfl,
      { a.arranged with dateCreated := Tables.readDate s.clock a.dateCreated }, rfl, rfl, hjoined⟩

end Relational

end Custody.Store
