import Custody.Proofs.Account.Placing
import Custody.Proofs.Service.Frame
import Custody.Proofs.Service.Outbox

/-!
The accounts that the creation of an asset returns, against those that the store then has on the
asset. They are collected one by one, and a payload may still meet the account of one before it,
which is on the list already, as it was. So the list is that of the store exactly if no account is
on it twice.
-/
namespace Custody

open Run Store

variable {σ : Type} [Store σ] {good : σ → Prop} {dated : Time.Instant → Time.Instant}
  {hasNode : σ → String → Prop} {w : World σ}

namespace Store

structure Lists {σ : Type} [Store σ] (good : σ → Prop) : Prop where
  mem : ∀ {s : σ} {asset : String} {a : Account}, good s →
    (a ∈ Store.accounts s (some asset) ↔ account? s a.id = some a ∧ a.assetId = asset)
  nodup : ∀ {s : σ} {asset : String}, good s → ((Store.accounts s (some asset)).map (·.id)).Nodup

theorem Memory.lists : Lists fun m : Memory => m.records.Filed ∧ m.records.References where
  mem {m asset a} hm := by
    rw [← ledger.listed hm, mem_accounts]
    refine List.mem_mergeSort.trans ?_
    simp
  nodup {m asset} hm := by
    have hsorted := List.mergeSort_perm
      (m.records.accounts.values.filter fun a => (some asset).all (a.assetId == ·))
      Records.byAssetAndName
    exact (hsorted.map _).nodup_iff.mpr (Rows.nodup_filter hm.1.accounts.nodup _)

theorem Relational.lists (clock : Time.Instant) : Lists (Relational.Kept clock) where
  mem {s asset a} hs := by
    rw [← (ledger clock).listed hs, mem_accounts]
    refine List.mem_map.trans ?_
    simp only [List.mem_mergeSort, List.mem_filter, Option.all_some, beq_iff_eq]
    constructor
    · rintro ⟨row, ⟨hrow, hasset⟩, rfl⟩
      exact ⟨⟨row, hrow, rfl⟩, hasset⟩
    · rintro ⟨⟨row, hrow, rfl⟩, hasset⟩
      exact ⟨row, ⟨hrow, hasset⟩, rfl⟩
  nodup {s asset} hs := by
    have hids := Rows.nodup_filter hs.1.1.accountIds fun a => (some asset).all (a.assetId == ·)
    change ((List.map (Tables.readAccount s.clock) _).map Account.id).Nodup
    rw [List.map_map]
    exact ((List.mergeSort_perm _ _).map _).nodup_iff.mpr hids

end Store

theorem Candidate.reconcile_placed (L : Ledger good dated hasNode) (hgood : good w.store)
    (c : Candidate) (lookup : Lookup) (policy : Policy) (id : String) (now : Time.Instant) :
    Returns (c.reconcile lookup policy id now) w fun r w' => good w'.store ∧
      Accounts.Placed dated c.assetId (account? w.store) r (account? w'.store) ∧
        (policy = .error → r.2 = .created) := by
  refine .bind (.ask ?_)
  cases hfound : c.existing? lookup w.store with
  | none =>
    refine .bind (.write fun _ s' hins => .pure ?_)
    obtain ⟨hgood', hfree, hafter⟩ := L.bookkeeping.insert hgood hins
    refine ⟨hgood', ⟨rfl, fun b hb => ?_, iff_of_true rfl hfree, Accounts.eq_update hafter⟩,
      fun _ => rfl⟩
    cases hfree.symm.trans hb
  | some old =>
    obtain ⟨hasset, hold⟩ := existing?_eq_some L hgood hfound
    have hbefore (b : Account) (hb : account? w.store old.id = some b) : b.assetId = c.assetId := by
      obtain rfl := Option.some.inj (hold.symm.trans hb)
      exact hasset
    cases policy with
    | error => exact .throw
    | skip =>
      refine .pure ⟨hgood, ⟨hasset, hbefore, by simp [hold], ?_⟩, nofun⟩
      rw [L.bookkeeping.reread hold hgood, ← hold]
      exact (Function.update_eq_self _ _).symm
    | update =>
      refine .bind (.write fun _ s' hupd => .pure ?_)
      obtain ⟨hid, hsame, hdate, -⟩ := c.applyTo_rewritten old now
      obtain ⟨hgood', hafter⟩ := L.bookkeeping.update hgood (hid ▸ hold) hsame hdate hupd
      refine ⟨hgood', ⟨hsame.trans hasset, hid ▸ hbefore, ?_, Accounts.eq_update hafter⟩, nofun⟩
      simp [hid, hold]

namespace Service

/-- The account of this payload is put on the asset, which the error policy does with new accounts
only. -/
structure Nests (good : σ → Prop) (dated : Time.Instant → Time.Instant) (asset : String)
    (policy : Policy) (payload : Json.Object) (s : σ) (r : Account × Outcome) (s' : σ) : Prop where
  good : good s'
  placed : Accounts.Placed dated asset (account? s) r (account? s')
  strict : policy = .error → payload.get? "on_invalid" = none → r.2 = .created

structure Nesting (good : σ → Prop) (dated : Time.Instant → Time.Instant) (asset : String)
    (policy : Policy) (payloads : List Json.Object) (s : σ) (made : List (Account × Outcome))
    (s' : σ) : Prop where
  good : good s'
  placing : Accounts.Placing dated asset (account? s) made (account? s')
  length : made.length = payloads.length
  strict : policy = .error → (∀ payload ∈ payloads, payload.get? "on_invalid" = none) →
    ∀ r ∈ made, r.2 = .created

theorem policy_of_take {payload rest : Json.Object} {controls : Controls}
    (h : Controls.take payload = .ok (controls, rest)) (hnone : payload.get? "on_invalid" = none) :
    controls.policy = none := by
  obtain ⟨template, _, h⟩ := exists_of_bind_eq_ok h
  obtain ⟨policy, hpolicy, h⟩ := exists_of_bind_eq_ok h
  obtain ⟨pushNow, _, h⟩ := exists_of_bind_eq_ok h
  obtain ⟨params, _, h⟩ := exists_of_bind_eq_ok h
  cases h
  rcases control_eq_ok hpolicy with ⟨v, hv, -⟩ | ⟨-, habsent⟩
  · cases hnone.symm.trans hv
  · exact habsent

theorem createAccount_nests (L : Ledger good dated hasNode) (hgood : good w.store)
    {payload : Json.Object} {asset : String} (hpayload : text? payload "asset" = some asset)
    (policy : Policy) :
    Returns (createAccount payload policy) w fun r w' =>
      Nests good dated asset policy payload w.store r w'.store := by
  refine createAccount_describes fun controls rest values c w' htake hvalues hc hsame => ?_
  rw [← hsame] at hgood ⊢
  have hasset : c.assetId = asset := by
    have htext := hvalues "asset" (by decide) (.inr (by decide))
    exact Option.some.inj (hc.asset.symm.trans (htext.trans hpayload))
  unfold storeCandidate
  rw [L.seamless.reconcile]
  refine (c.reconcile_placed L hgood _ _ _ _).followed ?_
  rintro ⟨a, o⟩ w'' ⟨hgood', hplaced, hstrict⟩
  rw [hasset] at hplaced
  have hnests : Nests good dated asset policy payload w'.store (a, o) w''.store := by
    refine ⟨hgood', hplaced, fun hpolicy hnone => hstrict ?_⟩
    rw [policy_of_take htake hnone, hpolicy]
    rfl
  dsimp only
  split
  · refine .bind (pushIfAsked_ends L _ _ _ hgood' fun w₃ hpushed => .pure ?_)
    exact { hnests with good := hpushed.1, placed := hpushed.2 ▸ hplaced }
  · exact .pure hnests

theorem nestedTelling_nests (L : Ledger good dated hasNode) (hgood : good w.store)
    (asset : String) (policy : Policy) (payload : Json.Object) :
    Returns (nestedTelling policy asset payload) w fun r w' =>
      Nests good dated asset policy payload w.store r w'.store := by
  refine .bind (nestedPayload_ends _ _ (fun nested hasset hkept => ?_) fun _ => trivial)
  refine (createAccount_nests L hgood hasset policy).mono fun r w' h => ?_
  have hguide := hkept "on_invalid" (by decide)
  exact { h with strict := fun hpolicy hnone => h.strict hpolicy (hguide.trans hnone) }

theorem mapM_nestedTelling_nesting (L : Ledger good dated hasNode) (hgood : good w.store)
    (asset : String) (policy : Policy) (payloads : List Json.Object) :
    Returns (payloads.mapM (nestedTelling policy asset)) w fun made w' =>
      Nesting good dated asset policy payloads w.store made w'.store := by
  induction payloads generalizing w with
  | nil => exact .pure ⟨hgood, .nil _, rfl, by simp⟩
  | cons payload rest ih =>
    rw [List.mapM_cons]
    refine (nestedTelling_nests L hgood asset policy payload).followed fun r w' hfirst => ?_
    refine (ih hfirst.good).followed fun made w'' hrest => .pure ?_
    refine ⟨hrest.good, .cons hfirst.placed hrest.placing, congrArg Nat.succ hrest.length, ?_⟩
    intro hpolicy hunset
    obtain ⟨hnone, hnones⟩ := List.forall_mem_cons.mp hunset
    exact List.forall_mem_cons.mpr ⟨hfirst.strict hpolicy hnone, hrest.strict hpolicy hnones⟩

theorem createAssetWith_nesting (L : Ledger good dated hasNode)
    (hown : ∀ {s : σ} {id : String} {a : Asset}, good s → asset? s id = some a → a.id = id)
    (hgood : good w.store) (draft : Asset.Draft) (org : String) (policy : Policy) :
    Returns (createAssetWith (nestedTelling policy) draft org) w fun r w' =>
      Nesting good dated r.1.id policy draft.accounts w.store r.2 w'.store ∧
        ∀ id, ¬ Accounts.Holds (account? w.store) r.1.id id := by
  refine createAssetWith_from _ draft org (fun _ _ _ => trivial) ?_ w rfl
  intro platform protocols labels paths d w₁ hw₁
  rw [← hw₁] at hgood ⊢
  obtain ⟨hentered, haccounts⟩ := L.enter hgood
  have hensured := Node.mapM_ensure_kept (w := ⟨Store.enter w₁.store, w₁.supply⟩) L hentered paths
  refine .transaction (hensured.followed ?_)
  rintro nodes w₂ ⟨hkept, hnodes⟩
  refine .bind (.write fun _ s hins => ?_)
  -- Accounts stand on stored assets only, so there are none on the one that was not stored yet.
  obtain ⟨hinserted, hsame, hvacant⟩ := L.insertAsset hkept.good (List.forall_mem_map.mpr hnodes)
    hins
  rw [hkept.accounts, haccounts] at hsame hvacant
  have hnested := mapM_nestedTelling_nesting (w := ⟨s, w₂.supply⟩) L hinserted d.id policy
    draft.accounts
  refine hnested.followed fun made w₃ hmade => .find fun stored hstored => .pure ?_
  have hid : stored.id = d.id := hown hmade.good hstored
  obtain ⟨hcommitted, hkeeps⟩ := L.commit hmade.good
  dsimp only
  rw [hid]
  refine ⟨{ hmade with good := hcommitted, placing := ?_ }, ?_⟩
  · rw [hkeeps, ← hsame]
    exact hmade.placing
  · rintro id ⟨b, hb, hasset⟩
    exact hvacant id b hb hasset

/-- The accounts of a reply, which are made of the payloads one by one with these outcomes, against
those that are stored on the asset. The last entry of each account says what is stored. All entries
do, and each account has one, exactly if no account has two, that is, if all of them are new. Under
the error policy they are, unless a payload asks for another one. -/
structure Listed (dated : Time.Instant → Time.Instant) (policy : Policy)
    (payloads : List Json.Object) (accounts : List Account) (outcomes : List Outcome)
    (stored : List Account) : Prop where
  length : accounts.length = payloads.length ∧ outcomes.length = payloads.length
  last : ∀ b, b ∈ stored ↔ ∃ a, Rows.LastBy (·.id) a accounts ∧ a.redated dated = b
  same : (accounts.map (·.redated dated)).Perm stored ↔ (accounts.map (·.id)).Nodup
  created : (accounts.map (·.id)).Nodup ↔ ∀ o ∈ outcomes, o = .created
  strict : policy = .error → (∀ payload ∈ payloads, payload.get? "on_invalid" = none) →
    (accounts.map (·.id)).Nodup

theorem Nesting.listed {payloads : List Json.Object} {policy : Policy} {asset : String}
    {made : List (Account × Outcome)} {s s' : σ}
    (h : Nesting good dated asset policy payloads s made s') (hlists : Lists good)
    (hvacant : ∀ id, ¬ Accounts.Holds (account? s) asset id) :
    Listed dated policy payloads (made.map (·.1)) (made.map (·.2))
      (Store.accounts s' (some asset)) := by
  have hcreated : ((made.map (·.1)).map (·.id)).Nodup ↔ ∀ r ∈ made, r.2 = .created := by
    have hnew : ∀ r ∈ made, ¬ Accounts.Holds (account? s) asset r.1.id := fun r _ => hvacant r.1.id
    rw [h.placing.created_iff, and_iff_left hnew, List.map_map]
    rfl
  have hlast (b : Account) : b ∈ Store.accounts s' (some asset) ↔
      ∃ a, Rows.LastBy (·.id) a (made.map (·.1)) ∧ a.redated dated = b := by
    rw [hlists.mem h.good]
    constructor
    · rintro ⟨hb, hasset⟩
      exact (h.placing.found hb).resolve_left fun hold => hvacant b.id ⟨b, hold, hasset⟩
    · rintro ⟨a, ha, rfl⟩
      obtain ⟨r, hr, rfl⟩ := List.mem_map.mp ha.mem
      exact ⟨h.placing.stored ha, h.placing.assetId r hr⟩
  refine ⟨by simp [h.length], hlast, ?_, ?_, fun hpolicy hunset => ?_⟩
  · exact Rows.perm_iff_nodup (fun _ => rfl) (hlists.nodup h.good) hlast
  · rw [hcreated, List.forall_mem_map]
  · exact hcreated.mpr (h.strict hpolicy hunset)

theorem createAsset_listed (L : Ledger good dated hasNode)
    (hown : ∀ {s : σ} {id : String} {a : Asset}, good s → asset? s id = some a → a.id = id)
    (hlists : Lists good) (hgood : good w.store) {draft : Asset.Draft} {org : String}
    {policy : Policy} {r : Asset × List Account} {w' : World σ}
    (h : createAsset draft org policy w = (.ok r, w')) :
    ∃ outcomes,
      (createAssetWith (nestedTelling policy) draft org w).1 = .ok (r.1, r.2.zip outcomes) ∧
      Listed dated policy draft.accounts r.2 outcomes (Store.accounts w'.store (some r.1.id)) := by
  rw [createAsset_eq, createNested_eq, createAssetWith_map, map_eq_pure_bind, bind_apply] at h
  cases hrun : createAssetWith (nestedTelling policy) draft org w with
  | mk result w'' =>
    rw [hrun] at h
    cases result with
    | error e => cases h
    | ok made =>
      obtain ⟨hnesting, hvacant⟩ :=
        (createAssetWith_nesting L hown hgood draft org policy).of_value hrun
      cases h
      refine ⟨made.2.map (·.2), ?_, hnesting.listed hlists hvacant⟩
      exact congrArg (fun l => Except.ok (made.1, l)) (List.zip_of_prod rfl rfl)

/-- When the creation of an asset succeeds, its reply is what the store then has on the asset, read
back as dates are, unless two of the nested payloads have met in one account. -/
theorem nested_listed (draft : Asset.Draft) (org : String) (policy : Policy) (supply : Supply)
    (r : Asset × List Account) :
    (∀ (m : Memory) w', m.records.Filed → m.records.References →
      createAsset draft org policy ⟨m, supply⟩ = (.ok r, w') → ∃ outcomes,
        (createAssetWith (nestedTelling policy) draft org ⟨m, supply⟩).1 =
          .ok (r.1, r.2.zip outcomes) ∧
        Listed id policy draft.accounts r.2 outcomes (Store.accounts w'.store (some r.1.id))) ∧
    ∀ (s : Relational) w', s.tables.Valid →
      createAsset draft org policy ⟨s, supply⟩ = (.ok r, w') → ∃ outcomes,
        (createAssetWith (nestedTelling policy) draft org ⟨s, supply⟩).1 =
          .ok (r.1, r.2.zip outcomes) ∧
        Listed (Tables.readDate s.clock) policy draft.accounts r.2 outcomes
          (Store.accounts w'.store (some r.1.id)) := by
  constructor
  · intro m w' hfiled hrefs hrun
    exact createAsset_listed Memory.ledger (fun hm => Memory.enlarging.own hm.1) Memory.lists
      ⟨hfiled, hrefs⟩ hrun
  · intro s w' hs hrun
    exact createAsset_listed (Relational.ledger s.clock)
      (fun hs => Relational.enlarging.own ⟨hs.1.1, hs.2⟩) (Relational.lists s.clock)
      (Relational.kept_of_valid hs) hrun

theorem nested_listed_copying :
    (hostMemory.records.Filed ∧ hostMemory.records.References ∧ ∃ r w',
      createAsset copyingDraft "org" .update ⟨hostMemory, countedDraws, 4⟩ = (.ok r, w') ∧
      ∃ outcomes,
        (createAssetWith (nestedTelling .update) copyingDraft "org"
          ⟨hostMemory, countedDraws, 4⟩).1 = .ok (r.1, r.2.zip outcomes) ∧
        Listed id .update copyingDraft.accounts r.2 outcomes
          (Store.accounts w'.store (some r.1.id))) ∧
    hostTables.tables.Valid ∧ ∃ r w',
      createAsset copyingDraft "org" .update ⟨hostTables, countedDraws, 4⟩ = (.ok r, w') ∧
      ∃ outcomes,
        (createAssetWith (nestedTelling .update) copyingDraft "org"
          ⟨hostTables, countedDraws, 4⟩).1 = .ok (r.1, r.2.zip outcomes) ∧
        Listed (Tables.readDate hostTables.clock) .update copyingDraft.accounts r.2 outcomes
          (Store.accounts w'.store (some r.1.id)) := by
  have hrecords := (memory_sound ⟨countedDraws, 0⟩ hostOperations).1
  have hkept := (relational_sound ⟨countedDraws, 0⟩ ⟨0, 0⟩ hostOperations).1
  have hvalid : hostTables.tables.Valid := ⟨hkept.1.1, hkept.2⟩
  have hok : (createAsset copyingDraft "org" .update ⟨hostMemory, countedDraws, 4⟩).1.isOk := by
    decide +kernel
  have hok' : (createAsset copyingDraft "org" .update ⟨hostTables, countedDraws, 4⟩).1.isOk := by
    decide +kernel
  obtain ⟨r, w', hrun⟩ := exists_of_isOk hok
  obtain ⟨r', v', hrun'⟩ := exists_of_isOk hok'
  have hm := (nested_listed copyingDraft "org" .update ⟨countedDraws, 4⟩ r).1
  have hs := (nested_listed copyingDraft "org" .update ⟨countedDraws, 4⟩ r').2
  exact ⟨⟨hrecords.1, hrecords.2, r, w', hrun, hm _ w' hrecords.1 hrecords.2 hrun⟩, hvalid, r', v',
    hrun', hs _ v' hvalid hrun'⟩

def meetingDraft : Asset.Draft := { copyingDraft with accounts :=
  [[("name", .text "root"), ("username", .text "root")],
    [("name", .text "root"), ("secret", .text "new"), ("username", .text "root")]] }

def repliedAndStored {σ : Type} [Store σ] (draft : Asset.Draft) (policy : Policy) (w : World σ) :
    Option (List (String × Option String) × List (String × Option String)) :=
  let view (a : Account) := (a.id, a.secret)
  match createAsset draft "org" policy w with
  | (.ok r, w') => some (r.2.map view, (Store.accounts w'.store (some r.1.id)).map view)
  | (.error _, _) => none

theorem stale_account_listed :
    repliedAndStored meetingDraft .update (⟨hostMemory, countedDraws, 4⟩ : World Memory) =
      some ([("iiiiiiiii", none), ("iiiiiiiii", some "new")], [("iiiiiiiii", some "new")]) ∧
    repliedAndStored meetingDraft .update (⟨hostTables, countedDraws, 4⟩ : World Relational) =
      some ([("iiiiiiiii", none), ("iiiiiiiii", some "new")], [("iiiiiiiii", some "new")]) := by
  decide +kernel

end Service

end Custody
