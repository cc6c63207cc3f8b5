import Custody.Proofs.Account.History
import Custody.Proofs.Sorted
import Custody.Proofs.Store.Accounts
import Custody.Proofs.Store.References
import Custody.Proofs.Store.Rollback

/-!
What the calls do to the accounts of a store and to what accounts and assets refer to. The tables
watch over their references themselves; the store in memory keeps them as long as an asset comes
with stored nodes and an update leaves an account on its asset.
-/
namespace Custody.Store

theorem Bookkeeping.and {σ : Type} [Store σ] {good also : σ → Prop}
    {dated : Time.Instant → Time.Instant} (hb : Bookkeeping good dated)
    (hinsert : ∀ {s s' : σ} {a : Account}, good s → also s →
      Store.insertAccount a s = (.ok (), s') → also s')
    (hupdate : ∀ {s s' : σ} {a old : Account}, good s → also s → account? s a.id = some old →
      a.assetId = old.assetId → Store.updateAccount a s = (.ok (), s') → also s') :
    Bookkeeping (fun s => good s ∧ also s) dated where
  slot hs h := hb.slot hs.1 h
  reread h hs := hb.reread h hs.1
  insert hs h := by
    obtain ⟨hgood, hrest⟩ := hb.insert hs.1 h
    exact ⟨⟨hgood, hinsert hs.1 hs.2 h⟩, hrest⟩
  insert_error h := hb.insert_error h
  update hs hold hasset hdate h := by
    obtain ⟨hgood, hrest⟩ := hb.update hs.1 hold hasset hdate h
    exact ⟨⟨hgood, hupdate hs.1 hs.2 hold hasset h⟩, hrest⟩
  update_error h := hb.update_error h

theorem Reverting.mono {σ : Type} [Store σ] {same same' : σ → σ → Prop}
    (h : ∀ s s', same s s' → same' s s') (hs : Reverting same) : Reverting same' where
  refl s := h s s (hs.refl s)
  call c s s' e hc := h s s' (hs.call c s s' e hc)
  missedAsset id s s' hc := h s s' (hs.missedAsset id s s' hc)
  missedTemplate id s s' hc := h s s' (hs.missedTemplate id s s' hc)
  transaction f hf w w' e hw := h _ _ (hs.transaction f hf w w' e hw)

def Call.Aside : Call → Prop
  | insertAsset _ | deleteAsset _ | insertAccount _ | updateAccount _ => False
  | _ => True

/-- What the calls do to accounts and nodes, on stores of which `good` holds. An account call is
read back through `dated`. -/
structure Ledger {σ : Type} [Store σ] (good : σ → Prop) (dated : Time.Instant → Time.Instant)
    (hasNode : σ → String → Prop) : Prop where
  seamless : Seamless σ
  bookkeeping : Bookkeeping good dated
  reverting : Reverting fun s s' : σ => good s → good s' ∧ account? s' = account? s
  enter : ∀ {s : σ}, good s → good (Store.enter s) ∧ account? (Store.enter s) = account? s
  commit : ∀ {s : σ}, good s → good (Store.commit s) ∧ account? (Store.commit s) = account? s
  aside : ∀ {c : Call} {s : σ}, c.Aside → good s →
    good (c.run s).2 ∧ account? (c.run s).2 = account? s
  own : ∀ {s : σ} {id : String} {a : Account}, good s → account? s id = some a → a.id = id
  listed : ∀ {s : σ} {a : Account}, good s →
    (a ∈ Store.accounts s none ↔ account? s a.id = some a)
  name : ∀ {s : σ} {asset name : String} {a : Account}, good s →
    accountByName? s asset name = some a → a.assetId = asset ∧ account? s a.id = some a
  node? : ∀ {s : σ} {path : String} {n : Node}, good s → Store.node? s path = some n →
    hasNode s n.id
  insertNode : ∀ {s s' : σ} {n : Node}, Store.insertNode n s = (.ok (), s') →
    hasNode s' n.id ∧ ∀ id, hasNode s id → hasNode s' id
  insertAsset : ∀ {s s' : σ} {a : Asset}, good s → (∀ id ∈ a.nodeIds, hasNode s id) →
    Store.insertAsset a s = (.ok (), s') → good s' ∧ account? s' = account? s ∧
      ∀ id b, account? s id = some b → b.assetId ≠ a.id
  deleteAsset : ∀ {s : σ} (id : String), good s → Accounts.Linked (account? s) →
    good (Store.deleteAsset id s).2 ∧
      account? (Store.deleteAsset id s).2 = Accounts.without (account? s) id

namespace Records

variable {r r' : Records}

/-- Every reference from one record to another, but for those between accounts, leads to a record
that is there. -/
structure References (r : Records) : Prop where
  platforms : ∀ a ∈ r.assets.values, r.platforms.contains a.platformId = true
  nodes : ∀ a ∈ r.assets.values, ∀ id ∈ a.nodeIds, r.nodes.contains id = true
  accounts : ∀ a ∈ r.accounts.values, r.assets.contains a.assetId = true

theorem References.empty : Records.empty.References := by
  constructor <;> simp [Records.empty, Keyed.values]

theorem contains_place {α : Type} {o : Keyed α} {key other : String} {value : α}
    (h : o.contains other = true) : (o.place key value).contains other = true := by
  rw [Keyed.contains, Keyed.get?_place]
  split
  · rfl
  · exact h

theorem forall_mem_place {α : Type} {o : Keyed α} {p : α → Prop} (h : ∀ a ∈ o.values, p a)
    {key : String} {value : α} (hvalue : p value) : ∀ a ∈ (o.place key value).values, p a := by
  intro a ha
  obtain ⟨m, hm, rfl⟩ := List.mem_map.mp ha
  rcases Keyed.mem_place hm with rfl | hm
  · exact hvalue
  · exact h _ (List.mem_map_of_mem hm)

theorem References.insertPlatform (h : r.References) (p : Platform) :
    References { r with platforms := r.platforms.place p.id p } :=
  { h with platforms := fun a ha => contains_place (h.platforms a ha) }

theorem References.insertNode (h : r.References) (n : Node) :
    References { r with nodes := r.nodes.place n.id n } :=
  { h with nodes := fun a ha id hid => contains_place (h.nodes a ha id hid) }

theorem References.insertAsset (h : r.References) {a : Asset}
    (hplatform : r.platforms.contains a.platformId = true)
    (hnodes : ∀ id ∈ a.nodeIds, r.nodes.contains id = true) :
    References { r with assets := r.assets.place a.id a.arranged } where
  platforms := forall_mem_place h.platforms hplatform
  nodes := forall_mem_place h.nodes fun id hid =>
    hnodes id (List.mem_mergeSort.mp (mem_dropRepeats.mp hid))
  accounts b hb := contains_place (h.accounts b hb)

theorem References.placeAccount (h : r.References) {a : Account}
    (hasset : r.assets.contains a.assetId = true) :
    References { r with accounts := r.accounts.place a.id a } :=
  { h with accounts := forall_mem_place h.accounts hasset }

theorem References.deleteAsset (h : r.References) (id : String) :
    References { r with
      assets := r.assets.erase id
      accounts := r.accounts.filter fun (_, a) => a.assetId ≠ id } where
  platforms a ha := by
    obtain ⟨m, hm, rfl⟩ := List.mem_map.mp ha
    exact h.platforms _ (List.mem_map_of_mem (List.mem_filter.mp hm).1)
  nodes a ha := by
    obtain ⟨m, hm, rfl⟩ := List.mem_map.mp ha
    exact h.nodes _ (List.mem_map_of_mem (List.mem_filter.mp hm).1)
  accounts a ha := by
    obtain ⟨m, hm, rfl⟩ := List.mem_map.mp ha
    obtain ⟨hm, hstays⟩ := List.mem_filter.mp hm
    rw [Keyed.contains, Keyed.get?_erase_of_ne _ (of_decide_eq_true hstays)]
    exact h.accounts _ (List.mem_map_of_mem hm)

theorem get?_deleteAsset (hfiled : r.Filed) (id key : String) :
    Keyed.get? (r.accounts.filter fun (_, a) => a.assetId ≠ id) key =
      (r.accounts.get? key).filter (·.assetId ≠ id) := by
  ext a
  rw [(hfiled.accounts.filter _).get?_eq_some_iff, Option.filter_eq_some_iff,
    hfiled.accounts.get?_eq_some_iff,
    Keyed.values_filter r.accounts fun a => decide (a.assetId ≠ id), List.mem_filter]
  exact and_right_comm

theorem deleteAsset_keeps (hfiled : r.Filed) (hrefs : r.References) (id : String) :
    ((r.deleteAsset id).2.Filed ∧ (r.deleteAsset id).2.References) ∧
      (r.deleteAsset id).2.accounts.get? = Accounts.without r.accounts.get? id := by
  unfold deleteAsset
  split
  · exact ⟨⟨hfiled.step (.deleteAsset id), hrefs.deleteAsset id⟩,
      funext (get?_deleteAsset hfiled id)⟩
  · next habsent =>
    refine ⟨⟨hfiled, hrefs⟩, (Accounts.without_eq_self fun key a ha heq => habsent ?_).symm⟩
    exact heq ▸ hrefs.accounts a (hfiled.accounts.get?_eq_some_iff.mp ha).1

end Records

namespace Memory

theorem bookkeeping_references :
    Bookkeeping (fun m : Memory => m.records.Filed ∧ m.records.References) id := by
  refine bookkeeping.and ?_ ?_
  · intro m m' a _ hrefs h
    obtain ⟨r, hr, rfl⟩ := eq_ok_of_guarded h
    obtain ⟨_, hasset, _, rfl⟩ := Records.insertAccount_eq_ok_iff.mp hr
    exact hrefs.placeAccount hasset
  · intro m m' a old hfiled hrefs hold hasset h
    obtain ⟨r, hr, rfl⟩ := eq_ok_of_guarded h
    obtain ⟨_, _, rfl⟩ := Records.updateAccount_eq_ok_iff.mp hr
    refine hrefs.placeAccount (hasset ▸ hrefs.accounts old ?_)
    exact (hfiled.accounts.get?_eq_some_iff.mp hold).1

theorem guarded_keeps {I : Records → Prop} {f : Records → Except Error Records} {m : Memory}
    (h : I m.records) (hf : ∀ r, f m.records = .ok r → I r) : I (guarded f m).2.records := by
  cases hr : f m.records with
  | ok r => rw [guarded_of_ok hr]; exact hf r hr
  | error e => rw [guarded_of_error hr]; exact h

def AlikeInAccounts (r r' : Records) : Prop := r'.References ∧ r'.accounts = r.accounts

theorem aside_keeps {c : Call} (hc : c.Aside) {m : Memory} (hm : m.records.References) :
    AlikeInAccounts m.records (c.run m).2.records := by
  have hsame : AlikeInAccounts m.records m.records := ⟨hm, rfl⟩
  cases c with
  | insertPlatform p =>
    refine guarded_keeps (I := AlikeInAccounts m.records) hsame fun r hr => ?_
    obtain ⟨_, _, rfl⟩ := Records.insertPlatform_eq_ok_iff.mp hr
    exact ⟨hm.insertPlatform p, rfl⟩
  | insertNode n =>
    refine guarded_keeps (I := AlikeInAccounts m.records) hsame fun r hr => ?_
    obtain ⟨_, rfl⟩ := Records.insertNode_eq_ok_iff.mp hr
    exact ⟨hm.insertNode n, rfl⟩
  | insertTemplate t =>
    refine guarded_keeps (I := AlikeInAccounts m.records) hsame fun r hr => ?_
    obtain ⟨_, rfl⟩ := Records.insertTemplate_eq_ok_iff.mp hr
    exact ⟨{ hm with }, rfl⟩
  | deleteTemplate id => exact ⟨{ hm with }, rfl⟩
  | enqueue p now => exact hsame
  | insertAsset | deleteAsset | insertAccount | updateAccount => exact hc.elim

theorem mem_accounts {m : Memory} {a : Account} :
    a ∈ Store.accounts m none ↔ a ∈ m.records.accounts.values := by
  refine List.mem_mergeSort.trans ?_
  simp

theorem stored_of_name {m : Memory} {asset name : String} {a : Account} (hm : m.records.Filed)
    (h : accountByName? m asset name = some a) : a.assetId = asset ∧ account? m a.id = some a := by
  have hfound : m.records.accounts.values.find? (·.hasName asset name) = some a := h
  have hname : a.hasName asset name :=
    List.find?_some (p := fun b : Account => b.hasName asset name) hfound
  simp only [Account.hasName, Bool.and_eq_true, beq_iff_eq] at hname
  exact ⟨hname.1, hm.accounts.get?_eq_some_iff.mpr ⟨List.mem_of_find?_eq_some hfound, rfl⟩⟩

theorem ledger : Ledger (fun m : Memory => m.records.Filed ∧ m.records.References) id
    (fun m id => m.records.nodes.contains id = true) where
  seamless := seamless
  bookkeeping := bookkeeping_references
  reverting := reverting.mono fun m m' hsame => by
    change _ → _ ∧ (fun id => m'.records.accounts.get? id) = fun id => m.records.accounts.get? id
    rw [hsame]
    exact fun h => ⟨h, rfl⟩
  enter h := ⟨h, rfl⟩
  commit h := ⟨h, rfl⟩
  aside {c m} hc hm := by
    obtain ⟨hrefs, haccounts⟩ := aside_keeps hc hm.2
    exact ⟨⟨hm.1.step (call_step c m), hrefs⟩, congrArg Keyed.get? haccounts⟩
  own hm h := (hm.1.accounts.get?_eq_some_iff.mp h).2
  listed {m a} hm := by
    change _ ↔ m.records.accounts.get? a.id = some a
    rw [hm.1.accounts.get?_eq_some_iff, and_iff_left rfl, mem_accounts]
  name hm := stored_of_name hm.1
  node? {m path n} hm h := by
    have hfound : m.records.node? path = some n := h
    have hget := hm.1.nodes.get?_eq_some_iff.mpr ⟨List.mem_of_find?_eq_some hfound, rfl⟩
    exact Option.isSome_iff_exists.mpr ⟨n, hget⟩
  insertNode {m m' n} h := by
    obtain ⟨r, hr, rfl⟩ := eq_ok_of_guarded h
    obtain ⟨_, rfl⟩ := Records.insertNode_eq_ok_iff.mp hr
    refine ⟨?_, fun id hid => Records.contains_place hid⟩
    exact Option.isSome_iff_exists.mpr ⟨n, Keyed.get?_place_self _ _ _⟩
  insertAsset {m m' a} hm hnodes h := by
    obtain ⟨r, hr, rfl⟩ := eq_ok_of_guarded h
    obtain ⟨hid, hplatform, rfl⟩ := Records.insertAsset_eq_ok_iff.mp hr
    refine ⟨⟨hm.1.step (.insertAsset a hid hplatform), hm.2.insertAsset hplatform hnodes⟩, rfl, ?_⟩
    intro key b hb heq
    have hasset := hm.2.accounts b (hm.1.accounts.get?_eq_some_iff.mp hb).1
    rw [heq, hid] at hasset
    cases hasset
  deleteAsset id hm _ := Records.deleteAsset_keeps hm.1 hm.2 id

end Memory

namespace Tables

variable {t t' : Tables}

theorem fresh_of_assetStatements {a : Asset} (h : together (assetStatements a) t = .ok t') :
    ∀ b ∈ t.assets, a.id ≠ b.id := by
  simp only [assetStatements, List.cons_append, together] at h
  split at h
  · next u hu => exact (insertAssetRow_eq_ok_iff.mp hu).1
  · cases h

end Tables

namespace Relational

theorem account?_eq {s s' : Relational} (haccounts : s'.tables.accounts = s.tables.accounts)
    (hclock : s'.clock = s.clock) : account? s' = account? s := by
  funext id
  change (s'.tables.accounts.find? _).map (Tables.readAccount s'.clock) = _
  rw [haccounts, hclock]
  rfl

theorem account?_of_mem {s : Relational} (hs : s.tables.Keys) {row : Account}
    (hrow : row ∈ s.tables.accounts) :
    account? s row.id = some (Tables.readAccount s.clock row) := by
  have hfind : s.tables.accounts.find? (·.id == row.id) = some row :=
    (Rows.find?_key_eq_some_iff hs.accountIds).mpr ⟨hrow, rfl⟩
  exact congrArg (Option.map (Tables.readAccount s.clock)) hfind

theorem account?_eq_some_iff {s : Relational} (hs : s.tables.Keys) {a : Account} :
    account? s a.id = some a ↔
      ∃ row ∈ s.tables.accounts, Tables.readAccount s.clock row = a := by
  constructor
  · intro h
    obtain ⟨row, hrow, hread⟩ := Option.map_eq_some_iff.mp h
    exact ⟨row, List.mem_of_find?_eq_some hrow, hread⟩
  · rintro ⟨row, hrow, rfl⟩
    exact account?_of_mem hs hrow

theorem stored_of_name {s : Relational} {asset name : String} {a : Account} (hs : s.tables.Keys)
    (h : accountByName? s asset name = some a) :
    a.assetId = asset ∧ account? s a.id = some a := by
  obtain ⟨row, hrow, rfl⟩ := Option.map_eq_some_iff.mp h
  have hname := List.find?_some (p := fun b : Account => b.hasName asset name) hrow
  simp only [Account.hasName, Bool.and_eq_true, beq_iff_eq] at hname
  exact ⟨hname.1, account?_of_mem hs (List.mem_of_find?_eq_some hrow)⟩

theorem asset?_isSome_iff (s : Relational) (id : String) :
    (asset? s id).isSome = true ↔ ∃ a ∈ s.tables.assets, a.id = id := by
  change ((s.tables.assets.find? (·.id == id)).map _).isSome = true ↔ _
  simp

theorem mem_accounts {s : Relational} {a : Account} : a ∈ Store.accounts s none ↔
    ∃ row ∈ s.tables.accounts, Tables.readAccount s.clock row = a := by
  refine List.mem_map.trans ?_
  simp

theorem call_clock (c : Call) (s : Relational) : (c.run s).2.clock = s.clock := by
  obtain ⟨t, ht⟩ := call_frame c s
  rw [ht]

theorem aside_accounts {c : Call} (hc : c.Aside) (s : Relational) :
    account? (c.run s).2 = account? s := by
  refine account?_eq ?_ (call_clock c s)
  cases c with
  | insertPlatform p =>
    exact congrArg Prod.fst (performAll_keeps (Tables.keeps_platformStatements p) s)
  | insertNode n => exact congrArg Prod.fst (guarded_keeps (Tables.keeps_insertNode n) s)
  | insertTemplate u => exact congrArg Prod.fst (guarded_keeps (Tables.keeps_insertTemplate u) s)
  | deleteTemplate id => rfl
  | enqueue p now => rfl
  | insertAsset | deleteAsset | insertAccount | updateAccount => exact hc.elim

def Kept (clock : Time.Instant) (s : Relational) : Prop :=
  (s.tables.Keys ∧ s.clock = clock) ∧ s.tables.References

theorem kept_of_valid {s : Relational} (h : s.tables.Valid) : Kept s.clock s :=
  ⟨⟨h.keys, rfl⟩, h.references⟩

theorem kept_of_reachable {clock : Time.Instant} {entries : List Relational} {s : Relational}
    (h : Reachable (Relational.empty clock) entries s) : Kept s.clock s :=
  kept_of_valid (Tables.valid_of_reachable h)

theorem Kept.call {clock : Time.Instant} {s : Relational} (h : Kept clock s) (c : Call) :
    Kept clock (c.run s).2 := by
  have hvalid := call_invariant (fun _ _ => Tables.Valid.step) c s ⟨h.1.1, h.2⟩
  exact ⟨⟨hvalid.keys, (call_clock c s).trans h.1.2⟩, hvalid.references⟩

theorem bookkeeping_references (clock : Time.Instant) :
    Bookkeeping (Kept clock) (Tables.readDate clock) := by
  refine (bookkeeping clock).and ?_ ?_
  · intro s s' a hs hrefs h
    have hkept := Kept.call ⟨hs, hrefs⟩ (.insertAccount a)
    rw [show (Call.insertAccount a).run s = _ from h] at hkept
    exact hkept.2
  · intro s s' a old hs hrefs _ _ h
    have hkept := Kept.call ⟨hs, hrefs⟩ (.updateAccount a)
    rw [show (Call.updateAccount a).run s = _ from h] at hkept
    exact hkept.2

theorem accounts_deleteAsset {clock : Time.Instant} {s : Relational} (hs : Kept clock s)
    (hlinked : Accounts.Linked (account? s)) (id : String) :
    (s.tables.deleteAsset id).2.accounts = s.tables.accounts.filter (·.assetId != id) := by
  -- No account that stays refers to one that goes, so none loses its reference.
  unfold Tables.deleteAsset
  split
  · refine (List.map_congr_left fun a ha => ?_).trans (List.map_id _)
    obtain ⟨ha, hstays⟩ := List.mem_filter.mp ha
    have hsuFrom : a.suFrom.filter (fun x =>
        !((s.tables.accounts.filter (·.assetId == id)).map (·.id)).contains x) = a.suFrom := by
      cases hsu : a.suFrom with
      | none => rfl
      | some x =>
        obtain ⟨b, hb, hsame⟩ := hlinked a.id _ (account?_of_mem hs.1.1 ha) x hsu
        refine Option.filter_some_pos (Bool.not_eq_true' _ ▸ Bool.eq_false_iff.mpr fun hgone => ?_)
        obtain ⟨c, hc, hid⟩ := List.mem_map.mp (List.contains_iff_mem.mp hgone)
        obtain ⟨hc, hgoes⟩ := List.mem_filter.mp hc
        obtain rfl := Option.some.inj ((hid ▸ account?_of_mem hs.1.1 hc).symm.trans hb)
        exact bne_iff_ne.mp hstays (hsame.symm.trans (eq_of_beq hgoes))
    exact congrArg (fun su => { a with suFrom := su }) hsuFrom
  · next habsent =>
    refine (List.filter_eq_self.mpr fun a ha => bne_iff_ne.mpr fun heq => habsent ?_).symm
    exact Tables.hasAsset_iff.mpr (heq ▸ hs.2.accounts a ha)

theorem account?_deleteAsset {clock : Time.Instant} {s : Relational} (hs : Kept clock s)
    (hlinked : Accounts.Linked (account? s)) (id : String) :
    account? (Store.deleteAsset id s).2 = Accounts.without (account? s) id := by
  funext key
  have hfind : (s.tables.accounts.filter (·.assetId != id)).find? (·.id == key) =
      (s.tables.accounts.find? (·.id == key)).filter (·.assetId != id) := by
    ext row
    rw [Rows.find?_key_eq_some_iff (Rows.nodup_filter hs.1.1.accountIds _),
      Option.filter_eq_some_iff, Rows.find?_key_eq_some_iff hs.1.1.accountIds, List.mem_filter]
    exact and_right_comm
  change ((s.tables.deleteAsset id).2.accounts.find? _).map (Tables.readAccount s.clock) =
    ((s.tables.accounts.find? _).map (Tables.readAccount s.clock)).filter _
  rw [accounts_deleteAsset hs hlinked, hfind, Option.filter_map]
  exact congrArg (fun p => ((s.tables.accounts.find? _).filter p).map _)
    (funext fun a => (Keyed.decide_ne a.assetId id).symm)

theorem ledger (clock : Time.Instant) : Ledger (Kept clock) (Tables.readDate clock)
    (fun s id => s.tables.hasNode id = true) where
  seamless := seamless
  bookkeeping := bookkeeping_references clock
  reverting := reverting.mono fun s s' hsame h => by
    rw [hsame]
    exact ⟨h, rfl⟩
  enter h := ⟨h, rfl⟩
  commit h := ⟨h, rfl⟩
  aside {c s} hc hs := ⟨hs.call c, aside_accounts hc s⟩
  listed hs := mem_accounts.trans (account?_eq_some_iff hs.1.1).symm
  own {s id a} _ h := by
    obtain ⟨row, hrow, rfl⟩ := Option.map_eq_some_iff.mp h
    have hid := List.find?_some (p := fun b : Account => b.id == id) hrow
    exact eq_of_beq hid
  name hs := stored_of_name hs.1.1
  node? {s path n} _ h := by
    have hfound : s.tables.nodes.find? (·.fullValue == path) = some n := h
    exact Tables.hasNode_iff.mpr ⟨n, List.mem_of_find?_eq_some hfound, rfl⟩
  insertNode {s s' n} h := by
    obtain ⟨t, ht, rfl⟩ := eq_ok_of_guarded h
    obtain ⟨_, _, rfl⟩ := Tables.insertNode_eq_ok_iff.mp ht
    refine ⟨Tables.hasNode_iff.mpr ⟨n, List.mem_append_right _ (.head _), rfl⟩, fun id hid => ?_⟩
    exact Tables.hasNode_iff.mpr (Tables.exists_mem_append (Tables.hasNode_iff.mp hid) [n])
  insertAsset {s s' a} hs _ h := by
    have hkept := hs.call (.insertAsset a)
    have haccounts : account? ((Call.insertAsset a).run s).2 = account? s :=
      account?_eq (congrArg Prod.fst (performAll_keeps (Tables.keeps_assetStatements a) s))
        (call_clock _ s)
    rw [show (Call.insertAsset a).run s = _ from h] at hkept haccounts
    refine ⟨hkept, haccounts, fun id b hb heq => ?_⟩
    obtain ⟨row, hrow, rfl⟩ := Option.map_eq_some_iff.mp hb
    obtain ⟨asset, hasset, hid⟩ := hs.2.accounts row (List.mem_of_find?_eq_some hrow)
    have hguarded := (performAll_eq (Tables.assetStatements a) s).symm.trans h
    obtain ⟨t, ht, -⟩ := eq_ok_of_guarded hguarded
    exact Tables.fresh_of_assetStatements ht asset hasset (heq.symm.trans hid.symm)
  deleteAsset {s} id hs hlinked := ⟨hs.call (.deleteAsset id), account?_deleteAsset hs hlinked id⟩

end Relational

end Custody.Store
