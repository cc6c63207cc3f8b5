import Custody.Proofs.Service.Counterparts
import Custody.Proofs.Store.Frame

/-!
One account on one asset, by itself or as a bulk of one target. The two look for the account in
different ways, and only the bulk tries a refused name again. Still they come to the same if the
payload names the account and no other account has that name: then it does not matter whether the
account is also looked for by its name, and no name is refused.
-/
namespace Custody

open Run Store

namespace Service

variable {σ : Type} [Store σ]

def queued (controls : Controls) (ids : List String) (now : Time.Instant) (s : σ) : σ :=
  if controls.pushNow && !ids.isEmpty then Store.enqueue ⟨ids, controls.params⟩ now s else s

theorem pushIfAsked_eq (controls : Controls) (ids : List String) (now : Time.Instant)
    (w : World σ) : pushIfAsked controls ids now w =
      (.ok (), { w with store := queued controls ids now w.store }) := by
  unfold pushIfAsked queued
  split <;> rfl

theorem queued_nil (controls : Controls) (now : Time.Instant) (s : σ) :
    queued controls [] now s = s := by
  simp [queued]

/-- The candidate was stored or passed over or, under the error policy, has met an account. -/
inductive Settled (policy : Policy) : Except Error (Account × Outcome) → Prop
  | done (a : Account) (o : Outcome) : Settled policy (.ok (a, o))
  | conflict : policy = .error → Settled policy (.error (.conflict .account))

inductive SameOutcome (assetId : String) :
    Except Error (Account × Outcome) → Except Error (List Bulk.Entry) → Prop
  | done (a : Account) (o : Outcome) :
    SameOutcome assetId (.ok (a, o)) (.ok [.done assetId o a.id])
  | conflict : SameOutcome assetId (.error (.conflict .account))
    (.error (.bulkFailed [.failed assetId "Account already exists"]))

/-- The outcomes match, and so do the stores behind both and the pushes that have joined their
queues. -/
structure Agreement (queue : σ → List Push) (s : σ) (assetId : String)
    (one : Except Error (Account × Outcome) × World σ)
    (all : Except Error (List Bulk.Entry) × World σ) : Prop where
  outcome : SameOutcome assetId one.1 all.1
  store : all.2.store = one.2.store
  pushes : ∃ pushed, queue one.2.store = queue s ++ pushed ∧ queue all.2.store = queue s ++ pushed

section Reconciliation

variable {good : σ → Prop} {dated : Time.Instant → Time.Instant} {c : Candidate} {policy : Policy}
  {id : String} {now : Time.Instant} {s : σ}

/-- No account but the holder of its slot has the name of the candidate. -/
def Unrivalled (c : Candidate) (s : σ) : Prop := ∀ b, Stored s b → c.Names b → c.Fills b

theorem Unrivalled.existing? (hd : Decided good dated) (hs : good s) (h : Unrivalled c s)
    (lookup : Lookup) : c.existing? lookup s = c.existing? .nameOrSlot s := by
  unfold Candidate.existing?
  cases hslot : accountBySlot? s c.assetId c.username c.secretType with
  | some a => rfl
  | none =>
    cases lookup with
    | nameOrSlot => rfl
    | slot =>
      refine (Option.eq_none_iff_forall_ne_some.mpr fun b hb => ?_).symm
      obtain ⟨hstored, hnames⟩ := (hd.name hs).mp hb
      exact nomatch hslot.symm.trans ((hd.slot hs).mpr ⟨hstored, h b hstored hnames⟩)

theorem Unrivalled.not_blocked (hd : Decided good dated) (hs : good s) (h : Unrivalled c s)
    {e : Account} (he : c.Meets s e) : ¬ c.Blocked s e := by
  rintro ⟨hfills, b, hb, hne, hnames⟩
  exact hne (congrArg Account.id (Candidate.eq_of_fills hd hs hb he.1 (h b hb hnames) hfills))

theorem Unrivalled.settled (hd : Decided good dated) (hs : good s) (h : Unrivalled c s)
    (hready : c.Ready id s) (policy : Policy) (now : Time.Instant) :
    ∃ r s', Settled policy r ∧ ∀ lookup supply,
      (c.reconcile lookup policy id now : Run σ _) ⟨s, supply⟩ = (r, ⟨s', supply⟩) := by
  have hresolved := Candidate.resolved policy now hd hs hready
  have hlookup (lookup : Lookup) (supply : Supply) :
      (c.reconcile lookup policy id now : Run σ _) ⟨s, supply⟩ =
        c.reconcile .nameOrSlot policy id now ⟨s, supply⟩ := by
    unfold Candidate.reconcile
    simp only [Run.ask_bind, h.existing? hd hs lookup]
  simp only [hlookup]
  rcases c.free_or_meets s with hfree | ⟨e, he⟩
  · obtain ⟨s', hrun, -⟩ := hresolved.created hfree
    exact ⟨_, s', .done _ _, fun _ => hrun⟩
  · cases policy with
    | skip => exact ⟨_, s, .done _ _, fun _ => hresolved.skipped e he rfl⟩
    | error => exact ⟨_, s, .conflict rfl, fun _ => hresolved.conflict e he rfl⟩
    | update =>
      obtain ⟨s', hrun, -⟩ := hresolved.updated e he rfl (h.not_blocked hd hs he)
      exact ⟨_, s', .done _ _, fun _ => hrun⟩

end Reconciliation

theorem Settled.sameOutcome {policy : Policy} {r : Except Error (Account × Outcome)}
    (h : Settled policy r) (assetId : String) :
    SameOutcome assetId r (Bulk.conclude policy [Bulk.told assetId r]) := by
  rw [Bulk.conclude_eq, Bulk.ordered_of_pairwise (List.pairwise_singleton _ _)]
  cases h with
  | done a o =>
    have hstate : (Bulk.Entry.done assetId o a.id).state ≠ .error := by cases o <;> nofun
    rw [if_neg (by simp [Bulk.told, hstate])]
    exact .done a o
  | conflict hpolicy =>
    rw [if_pos ⟨hpolicy, by simp [Bulk.told, Bulk.Entry.failed]⟩]
    exact .conflict

theorem Settled.createDrawing (hs : Seamless σ) {c : Candidate} {policy : Policy}
    {assetId : String} {types : SecretTypes} (htype : c.secretType ∈ types) {w : World σ}
    {r : Except Error (Account × Outcome)} {s' : σ} (h : Settled policy r)
    (hrun : ∀ supply, (c.forAsset assetId).reconcile .slot policy
      (w.supply.draws w.supply.used).id (w.supply.draws w.supply.used).now ⟨w.store, supply⟩ =
        (r, ⟨s', supply⟩)) :
    Bulk.createDrawing c [⟨assetId, types⟩] policy w =
      (Bulk.conclude policy [Bulk.told assetId r],
        ⟨s', { w.supply with used := w.supply.used + 1 }⟩) := by
  -- A settled candidate is not tried under another name, so a bulk of one target ends with its
  -- first attempt.
  have hstep (supply : Supply) :
      Bulk.step c policy ⟨assetId, types⟩ (w.supply.draws w.supply.used) ⟨w.store, supply⟩ =
        (.ok (Bulk.told assetId r), ⟨s', supply⟩) := by
    rw [Bulk.step, if_pos htype, Bulk.createFor_eq]
    refine (Run.bind_of_ok (Bulk.attempt_of_reconcile hs (hrun supply)) _).trans ?_
    cases h <;> rfl
  refine (Run.bind_of_ok (Bulk.mapM_draw _ w) _).trans ?_
  change ((Bulk.step c policy ⟨assetId, types⟩ (w.supply.draws w.supply.used) >>= fun e =>
    pure [e]) >>= fun entries => Run.of (Bulk.conclude policy entries)) _ = _
  rw [bind_assoc]
  exact Run.bind_of_ok (hstep _) _

/-- A single creation with this draw and a bulk of one target, which draws twice, have the same id
for an account and always the same time. -/
structure SameDraws (d : Draw) (supply : Supply) : Prop where
  id : (supply.draws (supply.used + 1)).id = d.id
  now : (supply.draws (supply.used + 1)).now = d.now
  pushed : (supply.draws supply.used).now = d.now

section Stores

variable {good : σ → Prop} {dated : Time.Instant → Time.Instant} {queue : σ → List Push}
  {kept : Push → Push} {single bulk rest values : Json.Object} {policy : Policy}
  {supply supply' : Supply} {s : σ} {controls : Controls} {templateId : Option String}
  {c : Candidate}

theorem storeCandidate_eq (hs : Seamless σ) {d : Draw} {r : Except Error (Account × Outcome)}
    {s' : σ} (hrun : (c.reconcile .nameOrSlot (controls.policy.getD policy) d.id d.now : Run σ _)
      ⟨s, supply⟩ = (r, ⟨s', supply⟩)) :
    storeCandidate controls c d policy ⟨s, supply⟩ = (r, ⟨match r with
      | .ok done => queued controls (changedId done) d.now s'
      | .error _ => s', supply⟩) := by
  unfold storeCandidate
  rw [hs.reconcile]
  cases r with
  | error e => exact Run.bind_of_error hrun _
  | ok done =>
    obtain ⟨a, o⟩ := done
    refine (Run.bind_of_ok hrun _).trans ?_
    dsimp only
    split
    · next hchanged =>
      refine (Run.bind_of_ok (pushIfAsked_eq _ _ _ _) _).trans ?_
      rw [changedId, if_pos hchanged]
      rfl
    · next hchanged =>
      rw [changedId, if_neg hchanged, queued_nil]
      rfl

theorem changedIds_done (assetId : String) (a : Account) (o : Outcome) :
    changedIds [.done assetId o a.id] = changedId (a, o) := by
  cases o <;> rfl

/-- The last stage of a bulk of one target ends like that of a single creation. -/
theorem storeBulk_agrees (hs : Seamless σ) {types : SecretTypes} (htype : c.secretType ∈ types)
    {r : Except Error (Account × Outcome)} {s' : σ} {d : Draw}
    (hsettled : Settled (controls.policy.getD policy) r)
    (hrun : ∀ lookup supply, (c.reconcile lookup (controls.policy.getD policy) d.id d.now :
      Run σ _) ⟨s, supply⟩ = (r, ⟨s', supply⟩))
    (next : Supply) (hid : (next.draws next.used).id = d.id)
    (hnow : (next.draws next.used).now = d.now) :
    let one := storeCandidate controls c d policy ⟨s, supply⟩
    let all := storeBulk controls (c.forAsset "") [⟨c.assetId, types⟩] policy d.now ⟨s, next⟩
    SameOutcome c.assetId one.1 all.1 ∧ all.2.store = one.2.store := by
  intro one all
  have hone : one = _ := storeCandidate_eq hs (hrun .nameOrSlot supply)
  have hcreate : Bulk.createDrawing (c.forAsset "") [⟨c.assetId, types⟩]
      (controls.policy.getD policy) ⟨s, next⟩ = _ :=
    hsettled.createDrawing hs htype fun supply => by rw [hid, hnow]; exact hrun .slot supply
  have houtcome := hsettled.sameOutcome c.assetId
  generalize Bulk.conclude _ _ = entries at hcreate houtcome
  rw [hone]
  cases houtcome with
  | done a o =>
    have hall : all = (.ok [.done c.assetId o a.id], _) :=
      (Run.bind_of_ok hcreate _).trans (Run.bind_of_ok (pushIfAsked_eq _ _ _ _) _)
    rw [hall, changedIds_done]
    exact ⟨.done a o, rfl⟩
  | conflict =>
    have hall : all = _ := Run.bind_of_error hcreate _
    rw [hall]
    exact ⟨.conflict, rfl⟩

/-- On a store where nothing but other accounts decides what becomes of an account call, the two
agree. -/
theorem agreement_of_decided (hd : Decided good dated) (hq : Queueing queue kept) (hs : good s)
    (hown : ∀ asset, asset? s c.assetId = some asset → asset.id = c.assetId)
    (hpasses : Passes single ⟨s, supply⟩ controls rest values templateId c)
    (hcounter : Counterparts single bulk c.assetId)
    (hdraws : SameDraws (supply.draws supply.used) supply')
    (hsupports : Supports s c.assetId c.secretType) (hname : Unrivalled c s)
    (hfresh : account? s (supply.draws supply.used).id = none) :
    Agreement queue s c.assetId (createAccount single policy ⟨s, supply⟩)
      (bulkCreateAccounts bulk policy ⟨s, supply'⟩) := by
  have hasset : (asset? s c.assetId).isSome := by
    obtain ⟨asset, hasset, -⟩ := hsupports
    rw [hasset]
    rfl
  have hsuFrom : c.suFrom = none := (candidateOf_eq_ok hpasses.candidate).2.2.2.2
  have hready : c.Ready (supply.draws supply.used).id s :=
    ⟨hasset, by rw [hsuFrom]; nofun, hfresh⟩
  -- One reconciliation stands for both: which look-up it makes does not matter here.
  obtain ⟨r, s', hsettled, hrun⟩ := hname.settled hd hs hready (controls.policy.getD policy)
    (supply.draws supply.used).now
  obtain ⟨types, htype, hload⟩ := hsupports.load (w := ⟨s, supply'⟩) hown
  have hread := hpasses.readBulk_eq hcounter (v := ⟨s, supply'⟩) rfl hload
  have hbulk : bulkCreateAccounts bulk policy ⟨s, supply'⟩ =
      storeBulk controls (c.forAsset "") [⟨c.assetId, types⟩] policy
        (supply.draws supply.used).now ⟨s, { supply' with used := supply'.used + 1 }⟩ := by
    rw [bulkCreateAccounts_eq, ← hdraws.pushed]
    exact Run.bind_of_ok hread _
  have hqueue : Ends (createAccount single policy) ⟨s, supply⟩
      (fun _ w => ∃ pushed, queue w.store = queue s ++ pushed)
      fun _ w => ∃ pushed, queue w.store = queue s ++ pushed :=
    (createAccount_queues hq single policy ⟨s, supply⟩ rfl).mono (fun _ _ h => ⟨_, h⟩)
      fun _ _ h => ⟨[], h.trans (List.append_nil _).symm⟩
  obtain ⟨pushed, hpushed⟩ := hqueue.reached
  rw [hpasses.createAccount_eq hasset] at hpushed ⊢
  rw [hbulk]
  obtain ⟨houtcome, hstore⟩ := storeBulk_agrees hq.seamless htype hsettled hrun
    { supply' with used := supply'.used + 1 } hdraws.id hdraws.now
  exact ⟨houtcome, hstore, pushed, hpushed, hstore ▸ hpushed⟩

end Stores

/-- Whatever calls a store has seen: if nobody but the holder of its slot has the name that a
payload gives, an account is created on an asset that supports its secret as it is created by a bulk
for this asset alone. -/
theorem single_agrees_with_bulk {single bulk rest values : Json.Object} {controls : Controls}
    {templateId : Option String} {c : Candidate} (policy : Policy) (supply supply' : Supply)
    (hcounter : Counterparts single bulk c.assetId)
    (hdraws : SameDraws (supply.draws supply.used) supply') :
    (∀ entries (m : Memory), Reachable Memory.empty entries m →
      Passes single ⟨m, supply⟩ controls rest values templateId c →
      Supports m c.assetId c.secretType → Unrivalled c m →
      account? m (supply.draws supply.used).id = none →
      Agreement Memory.pushes m c.assetId (createAccount single policy ⟨m, supply⟩)
        (bulkCreateAccounts bulk policy ⟨m, supply'⟩)) ∧
    ∀ clock entries (s : Relational), Reachable (Relational.empty clock) entries s →
      Passes single ⟨s, supply⟩ controls rest values templateId c →
      Supports s c.assetId c.secretType → Unrivalled c s →
      account? s (supply.draws supply.used).id = none →
      Agreement Relational.queue s c.assetId (createAccount single policy ⟨s, supply⟩)
        (bulkCreateAccounts bulk policy ⟨s, supply'⟩) := by
  constructor
  · intro entries m hm hpasses hsupports hname hfresh
    have hsound := sound_of_reachable hm
    exact agreement_of_decided Memory.decided Memory.queueing hsound
      (fun _ => Memory.enlarging.own hsound.1) hpasses hcounter hdraws hsupports hname hfresh
  · intro clock entries s hs hpasses hsupports hname hfresh
    have hvalid := Tables.valid_of_reachable hs
    exact agreement_of_decided (Relational.decided s.clock) Relational.queueing
      (Relational.kept_of_valid hvalid) (fun _ => Relational.enlarging.own hvalid) hpasses hcounter
      hdraws hsupports hname hfresh

/-- An asset with one account, and a template for another account of its username. -/
def templated : List Operation := hostOperations ++ [
  .createTemplate [("name", .text "base"), ("privileged", .bool true), ("username", .text "root")]
    "org"]

def templatedMemory : World Memory := after templated ⟨Memory.empty, countedDraws, 0⟩

def templatedTables : World Relational :=
  after templated ⟨Relational.empty ⟨0, 0⟩, countedDraws, 0⟩

def baseTemplate : Template :=
  ⟨"iiiii", "org", "base", "root", none, .password, true, true, none, ⟨0, 0⟩, ⟨0, 0⟩⟩

def opsPayload : Json.Object :=
  [("name", .text "ops"), ("push_now", .bool true), ("secret", .text "s3cret"),
    ("template", .text "iiiii")]

def opsOn : Json.Object := opsPayload.place "asset" (.text "ii")

def opsOnAll : Json.Object := opsPayload.place "assets" (.list [.text "ii"])

def opsCandidate : Candidate :=
  ⟨"ii", "ops", "root", .password, some "s3cret", some true, some true, none, none, .template,
    some "iiiii"⟩

def opsValues : Json.Object :=
  [("asset", .text "ii"), ("is_active", .bool true), ("name", .text "ops"),
    ("privileged", .bool true), ("secret", .text "s3cret"), ("secret_type", .text "password"),
    ("username", .text "root")]

def opsControls : Controls := ⟨some "iiiii", none, true, none⟩

theorem passes_opsOn {w : World σ} (h : template? w.store "iiiii" = some baseTemplate) :
    Passes opsOn w opsControls
      [("asset", .text "ii"), ("name", .text "ops"), ("secret", .text "s3cret")] opsValues
      (some "iiiii") opsCandidate where
  take := rfl
  merge := withTemplate_of_found h _ _
  kinds := rfl
  asset := rfl
  username := rfl
  name := rfl
  suFrom := rfl
  candidate := rfl

theorem unrivalled_of_free {good : σ → Prop} {dated : Time.Instant → Time.Instant} {s : σ}
    {c : Candidate} (hd : Decided good dated) (hs : good s)
    (h : accountByName? s c.assetId c.name = none) : Unrivalled c s :=
  fun _ hb hnames => nomatch h.symm.trans ((hd.name hs).mpr ⟨hb, hnames⟩)

theorem single_agrees_with_bulk_ops :
    let m := templatedMemory.store
    let s := templatedTables.store
    let one : Supply := ⟨countedDraws, 5⟩
    let all : Supply := ⟨countedDraws, 4⟩
    Counterparts opsOn opsOnAll "ii" ∧ SameDraws (countedDraws 5) all ∧
    (Supports m "ii" .password ∧ Unrivalled opsCandidate m ∧
      (createAccount opsOn .update ⟨m, one⟩).1.toOption.map (·.2) = some .updated ∧
      Agreement Memory.pushes m "ii" (createAccount opsOn .update ⟨m, one⟩)
        (bulkCreateAccounts opsOnAll .update ⟨m, all⟩)) ∧
    Supports s "ii" .password ∧ Unrivalled opsCandidate s ∧
      (createAccount opsOn .error ⟨s, one⟩).1.isOk = false ∧
      Agreement Relational.queue s "ii" (createAccount opsOn .error ⟨s, one⟩)
        (bulkCreateAccounts opsOnAll .error ⟨s, all⟩) := by
  intro m s one all
  have hcounter : Counterparts opsOn opsOnAll "ii" := counterparts_place opsPayload "ii"
  have hdraws : SameDraws (countedDraws 5) all := ⟨rfl, rfl, rfl⟩
  have hm : Reachable Memory.empty [] m := after_reachable templated .start
  have hs : Reachable (Relational.empty ⟨0, 0⟩) [] s := after_reachable templated .start
  have hname : Unrivalled opsCandidate m := unrivalled_of_free Memory.decided
    (sound_of_reachable hm) (by decide +kernel)
  have hname' : Unrivalled opsCandidate s := unrivalled_of_free (Relational.decided s.clock)
    (Relational.kept_of_reachable hs) (by decide +kernel)
  have hsupports : Supports m "ii" .password := by unfold Supports; decide +kernel
  have hsupports' : Supports s "ii" .password := by unfold Supports; decide +kernel
  have hagree := (single_agrees_with_bulk .update one all hcounter hdraws).1 _ m hm
    (passes_opsOn (by decide +kernel)) hsupports hname (by decide +kernel)
  have hagree' := (single_agrees_with_bulk .error one all hcounter hdraws).2 _ _ s hs
    (passes_opsOn (by decide +kernel)) hsupports' hname' (by decide +kernel)
  exact ⟨hcounter, hdraws, ⟨hsupports, hname, by decide +kernel, hagree⟩, hsupports', hname',
    by decide +kernel, hagree'⟩

end Service

end Custody
