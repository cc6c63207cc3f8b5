import Custody.Proofs.Store.Catalog
import Custody.Proofs.Store.Nodes

/-!
What the calls that bring in one asset leave as it is: every record but that asset, its accounts and
the nodes above it. The tables refuse an id that is there already; in memory a node with such an id
takes the place of the other, so there the ids have to be new.
-/
namespace Custody.Store

/-- What may come into a store: an asset with its accounts, if any, and nodes at some paths. Beside
it the nodes that are to stay whatever comes. -/
structure Scope where
  asset : Option String
  covers : String → Prop
  stays : Node → Prop

/-- A good store that holds what another did and differs from it only within the scope. -/
structure Enlarged {σ : Type} [Store σ] (good : σ → Prop) (nodes : σ → List Node) (S : Scope)
    (s s' : σ) : Prop where
  good : good s'
  platforms : platform? s' = platform? s
  templates : template? s' = template? s
  assets : ∀ id, some id ≠ S.asset → asset? s' id = asset? s id
  accounts : ∀ id b, some b.assetId ≠ S.asset → (account? s' id = some b ↔ account? s id = some b)
  kept : ∀ n ∈ nodes s, S.stays n → n ∈ nodes s'
  added : ∀ n ∈ nodes s', n ∈ nodes s ∨ S.covers n.fullValue

/-- The call is about the asset of the scope, an account of it, or a node of the scope that is kept
apart from the nodes that stay. -/
def Scope.Admits {σ : Type} [Store σ] (S : Scope) (apart : Node → String → Prop) (s : σ) :
    Call → Prop
  | .insertAsset a => S.asset = some a.id
  | .insertNode n => S.covers n.fullValue ∧ ∀ m, S.stays m → apart m n.id
  | .insertAccount a => S.asset = some a.assetId
  | .updateAccount a =>
    ∃ old, account? s a.id = some old ∧ S.asset = some old.assetId ∧ a.assetId = old.assetId ∧
      a.dateCreated = old.dateCreated
  | .enqueue _ _ => True
  | _ => False

section Enlarged

variable {σ : Type} [Store σ] {good : σ → Prop} {nodes : σ → List Node} {S : Scope} {s s' s'' : σ}

theorem Enlarged.refl (h : good s) : Enlarged good nodes S s s :=
  ⟨h, rfl, rfl, fun _ _ => rfl, fun _ _ _ => .rfl, fun _ hn _ => hn, fun _ => .inl⟩

theorem Enlarged.trans (h : Enlarged good nodes S s s') (h' : Enlarged good nodes S s' s'') :
    Enlarged good nodes S s s'' where
  good := h'.good
  platforms := h'.platforms.trans h.platforms
  templates := h'.templates.trans h.templates
  assets id hid := (h'.assets id hid).trans (h.assets id hid)
  accounts id b hb := (h'.accounts id b hb).trans (h.accounts id b hb)
  kept n hn hstays := h'.kept n (h.kept n hn hstays) hstays
  added n hn := (h'.added n hn).elim (h.added n) .inr

theorem Enlarged.widen (h : Enlarged good nodes { S with asset := none } s s') :
    Enlarged good nodes S s s' :=
  { h with
    assets := fun id _ => h.assets id nofun
    accounts := fun id b _ => h.accounts id b nofun }

theorem Enlarged.of_same (hgood : good s') (hplatforms : platform? s' = platform? s)
    (htemplates : template? s' = template? s) (hassets : asset? s' = asset? s)
    (haccounts : account? s' = account? s) (hnodes : nodes s' = nodes s) :
    Enlarged good nodes S s s' :=
  ⟨hgood, hplatforms, htemplates, fun id _ => congrFun hassets id,
    fun id _ _ => by rw [haccounts], fun _ hn _ => hnodes ▸ hn, fun _ hn => .inl (hnodes ▸ hn)⟩

theorem Enlarged.of_account {key : String} {a : Account} (hgood : good s')
    (hplatforms : platform? s' = platform? s) (htemplates : template? s' = template? s)
    (hassets : asset? s' = asset? s) (hnodes : nodes s' = nodes s)
    (hafter : ∀ id, account? s' id = if id = key then some a else account? s id)
    (ha : S.asset = some a.assetId)
    (hold : ∀ b, account? s key = some b → S.asset = some b.assetId) :
    Enlarged good nodes S s s' where
  good := hgood
  platforms := hplatforms
  templates := htemplates
  assets id _ := congrFun hassets id
  accounts id b hb := by
    rw [hafter]
    split
    · next heq =>
      subst heq
      refine iff_of_false (fun h => hb ?_) fun h => hb (hold b h).symm
      rw [ha, Option.some.inj h]
    · exact .rfl
  kept n hn _ := hnodes ▸ hn
  added n hn := .inl (hnodes ▸ hn)

end Enlarged

structure Enlarging {σ : Type} [Store σ] (good : σ → Prop) (nodes : σ → List Node)
    (apart : Node → String → Prop) : Prop where
  seamless : Seamless σ
  enter : ∀ {S : Scope} {s : σ}, good s → Enlarged good nodes S s (Store.enter s)
  commit : ∀ {S : Scope} {s : σ}, good s → Enlarged good nodes S s (Store.commit s)
  call : ∀ {S : Scope} {c : Call} {s : σ}, S.Admits apart s c → good s →
    Enlarged good nodes S s (c.run s).2
  fresh : ∀ {s s' : σ} {a : Asset}, Store.insertAsset a s = (.ok (), s') → asset? s a.id = none
  own : ∀ {s : σ} {id : String} {a : Asset}, good s → asset? s id = some a → a.id = id
  slot : ∀ {s : σ} {asset username : String} {type : SecretType} {a : Account}, good s →
    accountBySlot? s asset username type = some a →
    a.assetId = asset ∧ account? s a.id = some a
  name : ∀ {s : σ} {asset name : String} {a : Account}, good s →
    accountByName? s asset name = some a → a.assetId = asset ∧ account? s a.id = some a

theorem Enlarging.reached {σ : Type} [Store σ] {good : σ → Prop} {nodes : σ → List Node}
    {apart : Node → String → Prop} (E : Enlarging good nodes apart) {S : Scope} {c : Call}
    {s s' : σ} {r : Except Error Unit} (hc : S.Admits apart s c) (hs : good s)
    (h : c.run s = (r, s')) : Enlarged good nodes S s s' := by
  have henlarged := E.call hc hs
  rwa [h] at henlarged

namespace Memory

variable {S : Scope} {m : Memory}

abbrev Enlarged (S : Scope) (m m' : Memory) : Prop :=
  Store.Enlarged (fun m : Memory => m.records.Filed) nodes S m m'

theorem enlarged_insertAsset (hm : m.records.Filed) {a : Asset} (ha : S.asset = some a.id)
    {r : Records} (hr : m.records.insertAsset a = .ok r) :
    Enlarged S m { m with records := r } := by
  obtain ⟨hid, hplatform, rfl⟩ := Records.insertAsset_eq_ok_iff.mp hr
  exact {
    good := hm.step (.insertAsset a hid hplatform)
    platforms := rfl
    templates := rfl
    assets := fun id hne => Keyed.get?_place_of_ne _ _ fun heq => hne (heq ▸ ha.symm)
    accounts := fun _ _ _ => .rfl
    kept := fun _ hn _ => hn
    added := fun _ => .inl }

theorem enlarged_insertNode (hm : m.records.Filed) {n : Node} (hcovers : S.covers n.fullValue)
    (hapart : ∀ k, S.stays k → k.id ≠ n.id) {r : Records} (hr : m.records.insertNode n = .ok r) :
    Enlarged S m { m with records := r } := by
  obtain ⟨hpath, rfl⟩ := Records.insertNode_eq_ok_iff.mp hr
  have hfiled := hm.step (.insertNode n hpath)
  refine ⟨hfiled, rfl, rfl, fun _ _ => rfl, fun _ _ _ => .rfl, fun k hk hstays => ?_,
    fun k hk => ?_⟩
  · have hget := hm.nodes.get?_eq_some_iff.mpr ⟨hk, rfl⟩
    rw [← Keyed.get?_place_of_ne m.records.nodes n (hapart k hstays)] at hget
    exact (hfiled.nodes.get?_eq_some_iff.mp hget).1
  · obtain ⟨p, hp, rfl⟩ := List.mem_map.mp hk
    rcases Keyed.mem_place hp with rfl | hp
    · exact .inr hcovers
    · exact .inl (List.mem_map_of_mem hp)

theorem enlarged_of_guarded {f : Records → Except Error Records} (hm : m.records.Filed)
    (hf : ∀ r, f m.records = .ok r → Enlarged S m { m with records := r }) :
    Enlarged S m (guarded f m).2 := by
  cases hr : f m.records with
  | ok r =>
    rw [guarded_of_ok hr]
    exact hf r hr
  | error e =>
    rw [guarded_of_error hr]
    exact .refl hm

theorem call_enlarged {c : Call} (hc : S.Admits (fun n id => n.id ≠ id) m c)
    (hm : m.records.Filed) : Enlarged S m (c.run m).2 := by
  cases c with
  | insertAsset a => exact enlarged_of_guarded hm fun r => enlarged_insertAsset hm hc
  | insertNode n => exact enlarged_of_guarded hm fun r => enlarged_insertNode hm hc.1 hc.2
  | insertAccount a =>
    refine enlarged_of_guarded hm fun r hr => ?_
    obtain ⟨hid, hasset, hcheck, rfl⟩ := Records.insertAccount_eq_ok_iff.mp hr
    refine .of_account (hm.step (.insertAccount a hid hasset hcheck)) rfl rfl rfl rfl
      (fun id => Keyed.get?_place _ _ _ _) hc fun b hb => ?_
    rw [Keyed.contains, show m.records.accounts.get? a.id = some b from hb] at hid
    cases hid
  | updateAccount a =>
    obtain ⟨old, hold, hasset, hsame, -⟩ := hc
    refine enlarged_of_guarded hm fun r hr => ?_
    obtain ⟨hfound, hcheck, rfl⟩ := Records.updateAccount_eq_ok_iff.mp hr
    refine .of_account (hm.step (.updateAccount a hfound hcheck)) rfl rfl rfl rfl
      (fun id => Keyed.get?_place _ _ _ _) (hsame ▸ hasset) fun b hb => ?_
    obtain rfl := Option.some.inj (hold.symm.trans hb)
    exact hasset
  | enqueue p now => exact .of_same hm rfl rfl rfl rfl rfl
  | insertPlatform | deleteAsset | insertTemplate | deleteTemplate => exact hc.elim

theorem enlarging :
    Enlarging (fun m : Memory => m.records.Filed) nodes fun n id => n.id ≠ id where
  seamless := seamless
  enter hm := .of_same hm rfl rfl rfl rfl rfl
  commit hm := .of_same hm rfl rfl rfl rfl rfl
  call := call_enlarged
  fresh {m m' a} h := by
    obtain ⟨r, hr, rfl⟩ := eq_ok_of_guarded h
    obtain ⟨hid, -, -⟩ := Records.insertAsset_eq_ok_iff.mp hr
    exact Option.not_isSome_iff_eq_none.mp (Bool.eq_false_iff.mp hid)
  own hm h := (hm.assets.get?_eq_some_iff.mp h).2
  slot hm h := (bookkeeping.slot hm h).imp_left fun hslot => (Account.hasSlot_iff.mp hslot).1
  name := stored_of_name

end Memory

namespace Relational

variable {S : Scope} {s : Relational}

abbrev Enlarged (S : Scope) (s s' : Relational) : Prop :=
  Store.Enlarged (fun s : Relational => s.tables.Valid) nodes S s s'

theorem enlarged_insertAsset (hs : s.tables.Valid) {a : Asset} (ha : S.asset = some a.id)
    {t : Tables} (ht : Tables.together (Tables.assetStatements a) s.tables = .ok t) :
    Enlarged S s { s with tables := t } := by
  obtain ⟨_, _, _, heq, -⟩ := Tables.eq_of_together_assetStatements hs ht
  have hjoined := joined_append (ρ := AssetRow) (·.id)
    (Tables.insertAsset_keeps hs s.clock ht) (Tables.assetRow a)
  have hvalid := hs.together (Tables.sound_assetStatements a) ht
  subst heq
  exact {
    good := hvalid
    platforms := rfl
    templates := rfl
    assets := fun id hne => by
      have hother : (Tables.assetRow a).id ≠ id := fun heq => hne (heq ▸ ha.symm)
      exact (hjoined id).trans ((congrArg _ (if_neg hother)).trans (Option.or_none ..))
    accounts := fun _ _ _ => .rfl
    kept := fun _ hn _ => hn
    added := fun _ => .inl }

theorem enlarged_of_guarded {f : Tables.Statement} (hs : s.tables.Valid)
    (hf : ∀ t, f s.tables = .ok t → Enlarged S s { s with tables := t }) :
    Enlarged S s (guarded f s).2 := by
  cases ht : f s.tables with
  | ok t =>
    rw [guarded_of_ok ht]
    exact hf t ht
  | error e =>
    rw [guarded_of_error ht]
    exact .refl hs

theorem call_enlarged {c : Call} (hc : S.Admits (fun _ _ => True) s c) (hs : s.tables.Valid) :
    Enlarged S s (c.run s).2 := by
  cases c with
  | insertAsset a =>
    rw [show (Call.insertAsset a).run s = guarded _ s from performAll_eq _ s]
    exact enlarged_of_guarded hs fun t => enlarged_insertAsset hs hc
  | insertNode n =>
    refine enlarged_of_guarded hs fun t ht => ?_
    have hvalid := hs.statement (Tables.sound_insertNode n) ht
    obtain ⟨-, -, rfl⟩ := Tables.insertNode_eq_ok_iff.mp ht
    refine ⟨hvalid, rfl, rfl, fun _ _ => rfl, fun _ _ _ => .rfl, fun k hk _ => ?_, fun k hk => ?_⟩
    · exact List.mem_append_left _ hk
    · rcases List.mem_append.mp hk with hk | hk
      · exact .inl hk
      · obtain rfl := List.mem_singleton.mp hk
        exact .inr hc.1
  | insertAccount a =>
    refine enlarged_of_guarded hs fun t ht => ?_
    have hvalid := hs.statement (Tables.sound_insertAccount a) ht
    obtain ⟨-, hnone, hafter⟩ := (bookkeeping s.clock).insert ⟨hs.keys, rfl⟩ (guarded_of_ok ht)
    obtain ⟨-, -, -, -, rfl⟩ := Tables.insertAccount_eq_ok_iff.mp ht
    refine .of_account hvalid rfl rfl rfl rfl hafter hc fun b hb => ?_
    cases hnone.symm.trans hb
  | updateAccount a =>
    obtain ⟨old, hold, hasset, hsame, hdate⟩ := hc
    refine enlarged_of_guarded hs fun t ht => ?_
    have hvalid := hs.statement (Tables.sound_updateAccount a) ht
    obtain ⟨-, hafter⟩ :=
      (bookkeeping s.clock).update ⟨hs.keys, rfl⟩ hold hsame hdate (guarded_of_ok ht)
    obtain ⟨_, -, -, -, rfl⟩ := Tables.updateAccount_eq_ok_iff.mp ht
    refine .of_account hvalid rfl rfl rfl rfl hafter (hasset.trans (congrArg some hsame.symm)) ?_
    intro b hb
    obtain rfl := Option.some.inj (hold.symm.trans hb)
    exact hasset
  | enqueue p now =>
    have hvalid := call_invariant (fun _ _ => Tables.Valid.step) (.enqueue p now) s hs
    exact .of_same hvalid rfl rfl rfl rfl rfl
  | insertPlatform | deleteAsset | insertTemplate | deleteTemplate => exact hc.elim

theorem enlarging : Enlarging (fun s : Relational => s.tables.Valid) nodes fun _ _ => True where
  seamless := seamless
  enter hs := .of_same hs rfl rfl rfl rfl rfl
  commit hs := .of_same hs rfl rfl rfl rfl rfl
  call := call_enlarged
  fresh {s s' a} h := by
    have hguarded := (performAll_eq (Tables.assetStatements a) s).symm.trans h
    obtain ⟨t, ht, -⟩ := eq_ok_of_guarded hguarded
    refine Option.not_isSome_iff_eq_none.mp fun hsome => ?_
    obtain ⟨row, hrow, hid⟩ := (asset?_isSome_iff s a.id).mp hsome
    exact Tables.fresh_of_assetStatements ht row hrow hid.symm
  own {s id a} _ h := by
    obtain ⟨row, -, hid, rfl⟩ := mem_of_asset? h
    exact hid
  slot {s asset username type a} hs h :=
    ((bookkeeping s.clock).slot ⟨hs.keys, rfl⟩ h).imp_left fun hslot =>
      (Account.hasSlot_iff.mp hslot).1
  name hs := stored_of_name hs.keys

end Relational

end Custody.Store
