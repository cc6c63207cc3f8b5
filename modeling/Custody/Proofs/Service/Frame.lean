import Custody.Proofs.Asset.Forest
import Custody.Proofs.Service.Integrity
import Custody.Proofs.Store.Frame

/-!
What the creation of an asset leaves as it was. Its nested accounts may be copies, come from
templates, switch from others or meet each other: what is written is the new asset, accounts on it
and nodes at the paths above it, and everything that was stored before is stored still.
-/
namespace Custody

open Run Store

variable {σ : Type} [Store σ] {good : σ → Prop} {nodes : σ → List Node}
  {apart : Node → String → Prop} {S : Scope} {w w' : World σ}

namespace Node

/-- The ids still to be drawn are kept apart from the nodes that are to stay. -/
def Spared (S : Scope) (apart : Node → String → Prop) (supply : Supply) : Prop :=
  ∀ n, S.stays n → ∀ i, supply.used ≤ i → apart n (supply.draws i).id

def Grown (good : σ → Prop) (nodes : σ → List Node) (S : Scope) (apart : Node → String → Prop)
    (s : σ) (w' : World σ) : Prop :=
  Spared S apart w'.supply ∧ Enlarged good nodes S s w'.store

def Grows (good : σ → Prop) (nodes : σ → List Node) (S : Scope) (apart : Node → String → Prop)
    (w w' : World σ) : Prop :=
  good w.store → Spared S apart w.supply → Grown good nodes S apart w.store w'

theorem preorder_grows : Preorder (Grows good nodes S apart) where
  refl _ hgood hspared := ⟨hspared, .refl hgood⟩
  trans h h' hgood hspared := by
    obtain ⟨hleft, henlarged⟩ := h hgood hspared
    exact (h' henlarged.good hleft).imp_right henlarged.trans

theorem make_grows (E : Enlarging good nodes apart) {path : String} (hcovers : S.covers path)
    (parentId : Option String) : Within (Grows good nodes S apart) (make path parentId) := by
  intro w hgood hspared
  have hleft : Spared S apart { w.supply with used := w.supply.used + 1 } :=
    fun n hn i hi => hspared n hn i (Nat.le_of_succ_le hi)
  have happart (n : Node) (hn : S.stays n) := hspared n hn _ (Nat.le_refl w.supply.used)
  have hstored {r : Except Error Unit} {s' : σ} (hins : Store.insertNode
      ⟨(w.supply.draws w.supply.used).id, path, parentId⟩ w.store = (r, s')) :
      Enlarged good nodes S w.store s' :=
    E.reached (c := .insertNode _) ⟨hcovers, happart⟩ hgood hins
  have hends : Ends (make path parentId) w (fun _ => Grown good nodes S apart w.store)
      fun _ => Grown good nodes S apart w.store := by
    refine .bind (.draw (.bind (.write (fun _ s' hins => ?_) fun _ s' hins => ?_)))
    · exact .pure ⟨hleft, hstored hins⟩
    · exact ⟨hleft, hstored hins⟩
  exact hends.reached

theorem mapM_ensure_grows (E : Enlarging good nodes apart) {paths : List String}
    (hcovers : ∀ path ∈ paths, ∀ q ∈ path.toList :: ancestors path.toList,
      S.covers (.ofList q)) :
    Within (Grows good nodes S apart) (paths.mapM ensure) :=
  .mapM_of_mem preorder_grows fun path hpath =>
    ensureBelow_within preorder_grows fun q hq => make_grows E (hcovers path hpath q hq)

end Node

namespace Candidate

theorem reconcile_enlarged (E : Enlarging good nodes apart) (hgood : good w.store) {c : Candidate}
    (hasset : S.asset = some c.assetId) (lookup : Lookup) (policy : Policy) (id : String)
    (now : Time.Instant) :
    Returns (c.reconcile lookup policy id now) w fun _ w' =>
      Enlarged good nodes S w.store w'.store := by
  refine .bind (.ask ?_)
  cases hfound : c.existing? lookup w.store with
  | none =>
    refine .bind (.write fun _ s' hins => .pure ?_)
    exact E.reached (c := .insertAccount (c.toAccount id now)) hasset hgood hins
  | some old =>
    obtain ⟨hsame, hold⟩ : old.assetId = c.assetId ∧ account? w.store old.id = some old :=
      (slot_or_name_of_existing? hfound).elim (E.slot hgood) (E.name hgood)
    cases policy with
    | skip => exact .pure (.refl hgood)
    | error => exact .throw
    | update =>
      refine .bind (.write fun _ s' hupd => .pure ?_)
      have hnew := c.applyTo_rewritten old now
      have hadmits : S.Admits apart w.store (.updateAccount (c.applyTo old now)) :=
        ⟨old, hnew.id ▸ hold, hsame ▸ hasset, hnew.assetId, hnew.dateCreated⟩
      exact E.reached hadmits hgood hupd

end Candidate

namespace Service

theorem pushIfAsked_enlarged (E : Enlarging good nodes apart) (hgood : good w.store)
    (controls : Controls) (ids : List String) (now : Time.Instant) :
    Returns (pushIfAsked controls ids now) w fun _ w' =>
      Enlarged good nodes S w.store w'.store := by
  unfold pushIfAsked
  split
  · exact .ok rfl (E.call (c := .enqueue ⟨ids, controls.params⟩ now) trivial hgood)
  · exact .pure (.refl hgood)

theorem createAccount_enlarged (E : Enlarging good nodes apart) (hgood : good w.store)
    {payload : Json.Object} {asset : String} (hpayload : text? payload "asset" = some asset)
    (hasset : S.asset = some asset) (policy : Policy) :
    Returns (createAccount payload policy) w fun _ w' =>
      Enlarged good nodes S w.store w'.store := by
  refine createAccount_describes fun controls rest values c w' _ hvalues hc hsame => ?_
  rw [← hsame] at hgood ⊢
  have hown : asset = c.assetId := by
    have htext := hvalues "asset" (by decide) (.inr (by decide))
    exact Option.some.inj (hpayload.symm.trans (htext.symm.trans hc.asset))
  unfold storeCandidate
  rw [E.seamless.reconcile]
  refine (Candidate.reconcile_enlarged E hgood (hown ▸ hasset) _ _ _ _).followed ?_
  rintro ⟨a, o⟩ w'' h
  dsimp only
  split
  · have hpush := pushIfAsked_enlarged (S := S) E h.good controls [a.id]
    exact (hpush _).followed fun _ _ h' => .pure (h.trans h')
  · exact .pure h

theorem mapM_createNested_enlarged (E : Enlarging good nodes apart) (hgood : good w.store)
    {asset : String} (hasset : S.asset = some asset) (policy : Policy)
    (payloads : List Json.Object) :
    Returns (payloads.mapM (createNested asset policy)) w fun _ w' =>
      Enlarged good nodes S w.store w'.store := by
  induction payloads generalizing w with
  | nil => exact .pure (.refl hgood)
  | cons payload rest ih =>
    rw [List.mapM_cons]
    refine .bind (.bind (nestedPayload_ends _ _ (fun nested hnested _ => ?_) fun _ => trivial))
    refine (createAccount_enlarged E hgood hnested hasset policy).followed fun r w' h => ?_
    exact .pure ((ih h.good).followed fun _ _ h' => .pure (h.trans h'))

/-- First the nodes come, without any asset; then the asset and all that is on it. -/
theorem storeAsset_enlarged (E : Enlarging good nodes apart) (hgood : good w.store)
    (draft : Asset.Draft) (platform : Platform) (protocols : List Protocol) (labels : List Label)
    {paths : List String} (policy : Policy) (d : Draw) {covers : String → Prop}
    {stays : Node → Prop} (hspared : Node.Spared ⟨none, covers, stays⟩ apart w.supply)
    (hcovers : ∀ path ∈ paths, ∀ q ∈ path.toList :: Node.ancestors path.toList,
      covers (.ofList q)) :
    Returns (storeAsset draft platform protocols labels paths policy d) w fun r w' =>
      r.1.id = d.id ∧ asset? w'.store r.1.id = some r.1 ∧ asset? w.store r.1.id = none ∧
        Enlarged good nodes ⟨some r.1.id, covers, stays⟩ w.store w'.store := by
  have hensured := (Node.mapM_ensure_grows (S := ⟨none, covers, stays⟩) E hcovers).ends w
  refine hensured.returns.followed fun ns w' hgrown => ?_
  obtain ⟨-, hnodes⟩ := hgrown hgood hspared
  refine .bind (.write fun _ s' hins => ?_)
  have hfresh := (hnodes.assets d.id nofun).symm.trans (E.fresh hins)
  have hasset : Enlarged good nodes ⟨some d.id, covers, stays⟩ w'.store s' := by
    refine E.reached (c := .insertAsset _) ?_ hnodes.good hins
    exact rfl
  have hnested := mapM_createNested_enlarged (S := ⟨some d.id, covers, stays⟩)
    (w := ⟨s', w'.supply⟩) E hasset.good rfl policy draft.accounts
  refine hnested.followed fun accounts w'' haccounts => ?_
  refine .find fun stored hstored => .pure ?_
  have hid : stored.id = d.id := E.own haccounts.good hstored
  dsimp only
  rw [hid]
  exact ⟨rfl, hstored, hfresh, hnodes.widen.trans (hasset.trans haccounts)⟩

/-- The paths that a draft asks for: the root of the organisation if it names none. -/
def requestedPaths (draft : Asset.Draft) (org : String) : List String :=
  if draft.nodes.isEmpty then ["/" ++ org] else draft.nodes.map (Node.pathUnder org)

/-- The asset is stored as it is, under a new id. All records that were there are there unchanged;
what has come beside the asset are nodes at these paths or above them, and accounts of the asset. -/
structure Introduced {σ : Type} [Store σ] (nodes : σ → List Node) (paths : List String)
    (a : Asset) (s s' : σ) : Prop where
  stored : asset? s' a.id = some a
  fresh : asset? s a.id = none
  assets : ∀ id, id ≠ a.id → asset? s' id = asset? s id
  platforms : platform? s' = platform? s
  templates : template? s' = template? s
  accountsKept : ∀ id b, account? s id = some b → account? s' id = some b
  accountsAdded : ∀ id b, account? s' id = some b → account? s id = some b ∨ b.assetId = a.id
  nodesKept : ∀ n ∈ nodes s, n ∈ nodes s'
  nodesAdded : ∀ n ∈ nodes s', n ∈ nodes s ∨
    ∃ path ∈ paths, n.fullValue = path ∨ Node.AncestorOf n.fullValue path

def Along (paths : List String) (q : String) : Prop :=
  ∃ path ∈ paths, q = path ∨ Node.AncestorOf q path

theorem along_of_mem {paths : List String} {path : String} (hpath : path ∈ paths) {q : List Char}
    (hq : q ∈ path.toList :: Node.ancestors path.toList) : Along paths (.ofList q) := by
  refine ⟨path, hpath, (List.mem_cons.mp hq).imp (fun h => ?_) fun h => ?_⟩
  · rw [h, String.ofList_toList]
  · rwa [Node.ancestorOf_iff, String.toList_ofList]

def creationScope (nodes : σ → List Node) (paths : List String) (s : σ) (asset : Option String) :
    Scope := ⟨asset, Along paths, (· ∈ nodes s)⟩

/-- Where a new asset has come, with no account on it before. -/
theorem Introduced.of_enlarged {paths : List String} {a : Asset} {s s' : σ}
    (h : Enlarged good nodes (creationScope nodes paths s (some a.id)) s s')
    (hstored : asset? s' a.id = some a) (hfresh : asset? s a.id = none)
    (hvacant : ∀ id b, account? s id = some b → b.assetId ≠ a.id) :
    Introduced nodes paths a s s' where
  stored := hstored
  fresh := hfresh
  assets id hid := h.assets id (mt Option.some.inj hid)
  platforms := h.platforms
  templates := h.templates
  accountsKept id b hb := (h.accounts id b (mt Option.some.inj (hvacant id b hb))).mpr hb
  accountsAdded id b hb := by
    by_cases hown : b.assetId = a.id
    · exact .inr hown
    · exact .inl ((h.accounts id b (mt Option.some.inj hown)).mp hb)
  nodesKept n hn := h.kept n hn hn
  nodesAdded := h.added

theorem createAsset_introduces (E : Enlarging good nodes apart) (hgood : good w.store)
    (hapart : ∀ n ∈ nodes w.store, ∀ i, w.supply.used ≤ i → apart n (w.supply.draws i).id)
    (hvacant : ∀ i, w.supply.used ≤ i → asset? w.store (w.supply.draws i).id = none →
      ∀ id b, account? w.store id = some b → b.assetId ≠ (w.supply.draws i).id)
    (draft : Asset.Draft) (org : String) (policy : Policy) :
    Returns (createAsset draft org policy) w fun r w' =>
      Introduced nodes (requestedPaths draft org) r.1 w.store w'.store := by
  unfold createAsset
  refine .refusing (.find fun platform _ => ?_)
  refine .bind (.of fun entries _ => .bind (.of fun validated _ => ?_))
  refine .bind (.of fun protocols _ => .bind (.of fun labels _ => ?_))
  refine .bind (.draw (.transaction ?_))
  let scope := creationScope nodes (requestedPaths draft org) w.store
  have hentered : Enlarged good nodes (scope none) w.store (Store.enter w.store) := E.enter hgood
  have hspared : Node.Spared (scope none) apart { w.supply with used := w.supply.used + 1 } :=
    fun n hn i hi => hapart n hn i (Nat.le_of_succ_le hi)
  have hstored := storeAsset_enlarged E (w := ⟨Store.enter w.store, _⟩) hentered.good draft platform
    protocols labels policy (w.supply.draws w.supply.used) hspared
    fun _ hpath _ hq => along_of_mem hpath hq
  refine hstored.mono ?_
  rintro ⟨asset, accounts⟩ w' ⟨hid, hasset, hfresh, hmade⟩
  have hcommitted : Enlarged good nodes (scope none) w'.store (Store.commit w'.store) :=
    E.commit hmade.good
  have hall : Enlarged good nodes (scope asset.id) w.store (Store.commit w'.store) :=
    hentered.widen.trans (hmade.trans hcommitted.widen)
  have hnew : asset? w.store asset.id = none := (hentered.assets _ nofun).symm.trans hfresh
  refine .of_enlarged hall ((hcommitted.assets _ nofun).trans hasset) hnew ?_
  rw [show asset.id = _ from hid] at hnew ⊢
  exact hvacant _ (Nat.le_refl _) hnew

/-- No id that is still to be drawn is in use, by a node or for the asset of an account. -/
structure Unspent (supply : Supply) (m : Memory) : Prop where
  nodes : ∀ n ∈ m.nodes, ∀ i, supply.used ≤ i → n.id ≠ (supply.draws i).id
  accounts : ∀ a ∈ m.records.accounts.values, ∀ i, supply.used ≤ i →
    a.assetId ≠ (supply.draws i).id

/-- Whatever a draft and its nested payloads say, a creation that succeeds brings in the asset with
what belongs to it, and reaches no record that was there. The tables refuse an id that is in use;
the memory has to be given new ones. -/
theorem asset_introduced (draft : Asset.Draft) (org : String) (policy : Policy) (supply : Supply)
    (r : Asset × List Account) :
    (∀ m w', m.records.Filed → Unspent supply m →
      createAsset draft org policy ⟨m, supply⟩ = (.ok r, w') →
      Introduced Memory.nodes (requestedPaths draft org) r.1 m w'.store) ∧
    ∀ s w', s.tables.Valid → createAsset draft org policy ⟨s, supply⟩ = (.ok r, w') →
      Introduced Relational.nodes (requestedPaths draft org) r.1 s w'.store := by
  constructor
  · intro m w' hm hunspent hrun
    refine (createAsset_introduces Memory.enlarging hm hunspent.nodes ?_ draft org policy).of_value
      hrun
    intro i hi _ id b hb
    exact hunspent.accounts b (hm.accounts.get?_eq_some_iff.mp hb).1 i hi
  · intro s w' hs hrun
    refine (createAsset_introduces Relational.enlarging hs (fun _ _ _ _ => trivial) ?_ draft org
      policy).of_value hrun
    intro i _ hnone id b hb heq
    obtain ⟨row, hrow, rfl⟩ := Option.map_eq_some_iff.mp hb
    have hstored := hs.references.accounts row (List.mem_of_find?_eq_some hrow)
    have hsome := (Relational.asset?_isSome_iff s _).mpr hstored
    rw [show row.assetId = _ from heq, hnone] at hsome
    cases hsome

def copyingDraft : Asset.Draft :=
  ⟨"db", "10.0.0.2", "i", none, true, "", none, [], ["/prod/db", "spare"],
    [[("asset", .text "ii"), ("username", .text "root")],
      [("id", .text "iiii"), ("username", .text "app")],
      [("name", .text "root"), ("username", .text "root")]]⟩

def hostMemory : Memory := (after hostOperations ⟨Memory.empty, countedDraws, 0⟩).store

def hostTables : Relational :=
  (after hostOperations ⟨Relational.empty ⟨0, 0⟩, countedDraws, 0⟩).store

theorem unspent_hostMemory : Unspent ⟨countedDraws, 4⟩ hostMemory := by
  have hnodes : hostMemory.nodes.map (·.id) = [(countedDraws 2).id] := by decide +kernel
  have hassets : hostMemory.records.accounts.values.map (·.assetId) = [(countedDraws 1).id] := by
    decide +kernel
  have later {k i : Nat} (hk : k < 4) (hi : 4 ≤ i) : (countedDraws k).id ≠ (countedDraws i).id :=
    fun heq => Nat.not_le_of_lt hk (genuine_countedDraws.id_inj k i heq ▸ hi)
  constructor
  · intro n hn i hi
    have hid := hnodes ▸ List.mem_map_of_mem hn
    rw [List.mem_singleton.mp hid]
    exact later (by decide) hi
  · intro a ha i hi
    have hid := hassets ▸ List.mem_map_of_mem ha
    rw [List.mem_singleton.mp hid]
    exact later (by decide) hi

theorem asset_introduced_copying :
    (hostMemory.records.Filed ∧ Unspent ⟨countedDraws, 4⟩ hostMemory ∧ ∃ r w',
      createAsset copyingDraft "org" .update ⟨hostMemory, countedDraws, 4⟩ = (.ok r, w') ∧
      Introduced Memory.nodes (requestedPaths copyingDraft "org") r.1 hostMemory w'.store ∧
      r.2.map (·.username) = ["root", "app", "root"]) ∧
    hostTables.tables.Valid ∧ ∃ r w',
      createAsset copyingDraft "org" .update ⟨hostTables, countedDraws, 4⟩ = (.ok r, w') ∧
      Introduced Relational.nodes (requestedPaths copyingDraft "org") r.1 hostTables w'.store ∧
      r.2.map (·.username) = ["root", "app", "root"] := by
  have hfiled := (memory_sound ⟨countedDraws, 0⟩ hostOperations).1.1
  have hkept := (relational_sound ⟨countedDraws, 0⟩ ⟨0, 0⟩ hostOperations).1
  have hvalid : hostTables.tables.Valid := ⟨hkept.1.1, hkept.2⟩
  have hok : (createAsset copyingDraft "org" .update ⟨hostMemory, countedDraws, 4⟩).1.toOption.map
      (·.2.map (·.username)) = some ["root", "app", "root"] := by decide +kernel
  have hok' : (createAsset copyingDraft "org" .update ⟨hostTables, countedDraws, 4⟩).1.toOption.map
      (·.2.map (·.username)) = some ["root", "app", "root"] := by decide +kernel
  refine ⟨⟨hfiled, unspent_hostMemory, ?_⟩, hvalid, ?_⟩
  · match h : createAsset copyingDraft "org" .update ⟨hostMemory, countedDraws, 4⟩ with
    | (.ok r, w') =>
      rw [h] at hok
      have hall := (asset_introduced copyingDraft "org" .update ⟨countedDraws, 4⟩ r).1
      exact ⟨r, w', rfl, hall _ w' hfiled unspent_hostMemory h, Option.some.inj hok⟩
    | (.error _, _) => rw [h] at hok; cases hok
  · match h : createAsset copyingDraft "org" .update ⟨hostTables, countedDraws, 4⟩ with
    | (.ok r, w') =>
      rw [h] at hok'
      have hall := (asset_introduced copyingDraft "org" .update ⟨countedDraws, 4⟩ r).2
      exact ⟨r, w', rfl, hall _ w' hvalid h, Option.some.inj hok'⟩
    | (.error _, _) => rw [h] at hok'; cases hok'

end Service

end Custody
