import Custody.Proofs.Service.Integrity
import Custody.Proofs.Store.Elsewhere
import Custody.Proofs.Store.Queue

/-!
What the account pipelines queue. Each of them queues at most one push, behind its last write, of
the accounts that it has created or updated. So a pipeline that fails has queued nothing; but an
asset is created around such pipelines, and in memory what they have queued outlasts it.
-/
namespace Custody

open Run Store

namespace Service

def asksPush (payload : Json.Object) : Bool := (flag? payload "push_now").getD false

def pushParams (payload : Json.Object) : Option Json.Value :=
  match payload.get? "params" with
  | some (.object o) => some (.object o)
  | _ => none

/-- What is to be queued for a payload after these accounts were written. -/
def pushesFor (payload : Json.Object) (ids : List String) : List Push :=
  if asksPush payload && !ids.isEmpty then [⟨ids, pushParams payload⟩] else []

@[simp] theorem pushesFor_nil (payload : Json.Object) : pushesFor payload [] = [] := by
  simp [pushesFor]

theorem pushesFor_of_silent {payload : Json.Object} (h : asksPush payload = false)
    (ids : List String) : pushesFor payload ids = [] := by
  simp [pushesFor, h]

theorem pushesFor_congr {payload payload' : Json.Object}
    (hask : payload'.get? "push_now" = payload.get? "push_now")
    (hparams : payload'.get? "params" = payload.get? "params") :
    pushesFor payload' = pushesFor payload := by
  have hask' : asksPush payload' = asksPush payload := by unfold asksPush flag?; rw [hask]
  have hparams' : pushParams payload' = pushParams payload := by unfold pushParams; rw [hparams]
  funext ids
  rw [pushesFor, pushesFor, hask', hparams']

theorem control_eq_ok {α : Type} {payload : Json.Object} {name wanted : String} {absent a : α}
    {parse : Json.Value → Option (Except Error α)}
    (h : control payload name wanted absent parse = .ok a) :
    (∃ v, payload.get? name = some v ∧ parse v = some (.ok a)) ∨
      (payload.get? name = none ∨ payload.get? name = some .null) ∧ a = absent := by
  unfold control at h
  split at h
  · next hnone => exact .inr ⟨.inl hnone, (Except.ok.inj h).symm⟩
  · next hnull => exact .inr ⟨.inr hnull, (Except.ok.inj h).symm⟩
  · next v _ hv =>
    cases hparse : parse v with
    | none => rw [hparse] at h; cases h
    | some r => rw [hparse] at h; exact .inl ⟨v, hv, hparse.trans (congrArg some h)⟩

theorem push_of_take {payload rest : Json.Object} {controls : Controls}
    (h : Controls.take payload = .ok (controls, rest)) :
    controls.pushNow = asksPush payload ∧ controls.params = pushParams payload := by
  obtain ⟨template, _, h⟩ := exists_of_bind_eq_ok h
  obtain ⟨policy, _, h⟩ := exists_of_bind_eq_ok h
  obtain ⟨pushNow, hpushNow, h⟩ := exists_of_bind_eq_ok h
  obtain ⟨params, hparams, h⟩ := exists_of_bind_eq_ok h
  cases h
  constructor
  · rcases control_eq_ok hpushNow with ⟨v, hv, hparse⟩ | ⟨hv | hv, rfl⟩
    · obtain ⟨b, hb, hok⟩ := Option.map_eq_some_iff.mp hparse
      cases hok
      simp [asksPush, flag?, hv, hb]
    · simp [asksPush, flag?, hv]
    · simp [asksPush, flag?, hv, Json.Value.asBool?]
  · rcases control_eq_ok hparams with ⟨v, hv, hparse⟩ | ⟨hv | hv, rfl⟩
    · split at hparse
      · cases hparse
        simp [pushParams, hv]
      · cases hparse
    · simp [pushParams, hv]
    · simp [pushParams, hv]

section Queues

variable {σ : Type} [Store σ] {queue : σ → List Push} {kept : Push → Push} {s : σ}
  (hq : Queueing queue kept)

include hq

theorem pushIfAsked_queues {payload rest : Json.Object} {controls : Controls}
    (htake : Controls.take payload = .ok (controls, rest)) (ids : List String)
    (now : Time.Instant) {w : World σ} {value : Unit → World σ → Prop}
    {error : Error → World σ → Prop}
    (hv : ∀ w', queue w'.store = queue w.store ++ (pushesFor payload ids).map kept →
      account? w'.store = account? w.store → value () w') :
    Ends (pushIfAsked controls ids now) w value error := by
  obtain ⟨hask, hparams⟩ := push_of_take htake
  unfold pushIfAsked
  rw [hask, hparams]
  split
  · next h =>
    refine .ok rfl (hv _ ?_ (hq.account? _ _ _))
    rw [pushesFor, if_pos h]
    exact hq.enqueue _ _ _
  · next h =>
    refine .pure (hv w ?_ rfl)
    rw [pushesFor, if_neg h, List.map_nil, List.append_nil]

def changedId (r : Account × Outcome) : List String := if r.2.changed then [r.1.id] else []

theorem createAccount_queues (payload : Json.Object) (policy : Policy) :
    From s (createAccount payload policy)
      (fun r w => queue w.store = queue s ++ (pushesFor payload (changedId r)).map kept)
      fun _ w => queue w.store = queue s := by
  refine createAccount_from payload policy (fun e w h => h ▸ rfl) ?_
  rintro controls rest c d htake w rfl
  have hsilent := c.reconcile_allowing hq.allowing (fun _ => ⟨trivial, trivial⟩) .nameOrSlot
    (controls.policy.getD policy) d.id d.now
  unfold storeCandidate
  rw [hq.seamless.reconcile]
  refine .bind ((hsilent.ends w).mono (fun r w' hsame => ?_) fun _ _ hsame => hsame)
  dsimp only
  split
  · next hchanged =>
    refine .bind (pushIfAsked_queues hq htake _ _ fun w'' hqueue _ => .pure ?_)
    simp only [hqueue, hsame, changedId, if_pos hchanged]
  · next hchanged =>
    refine .pure ?_
    simp [hsame, changedId, hchanged]

theorem updateAccount_queues (id : String) (payload : Json.Object) :
    From s (updateAccount id payload)
      (fun a w => queue w.store = queue s ++ (pushesFor payload [a.id]).map kept)
      fun _ w => queue w.store = queue s := by
  refine updateAccount_from id payload (fun e w h => h ▸ rfl) ?_
  rintro controls rest new now htake w rfl
  have hsilent := hq.allowing.write (.updateAccount new) trivial fun _ => rfl
  unfold storeUpdate
  rw [hq.seamless.update]
  refine .bind ((hsilent.ends w).mono (fun _ w' hsame => ?_) fun _ _ hsame => hsame)
  refine .bind (pushIfAsked_queues hq htake _ _ fun w'' hqueue _ => .pure ?_)
  rw [hqueue, hsame]

theorem createDrawing_silent (c : Candidate) (targets : List Bulk.Target) (policy : Policy) :
    Within (fun w w' : World σ => queue w'.store = queue w.store)
      (Bulk.createDrawing c targets policy) := by
  have hT := hq.allowing
  refine Bulk.createDrawing_within hT.toPreorder hT.drawing c targets policy ?_
  intro asset name id now
  refine .caught ?_
  rw [hq.seamless.reconcile]
  exact Candidate.reconcile_allowing hT (fun _ => ⟨trivial, trivial⟩) _ _ _ _ _

theorem bulkCreateAccounts_queues (payload : Json.Object) (policy : Policy) :
    From s (bulkCreateAccounts payload policy)
      (fun entries w =>
        queue w.store = queue s ++ (pushesFor payload (changedIds entries)).map kept)
      fun _ w => queue w.store = queue s := by
  refine bulkCreateAccounts_from payload policy (fun e w h => h ▸ rfl) ?_
  rintro controls rest c targets now htake w rfl
  have hsilent := createDrawing_silent hq c targets (controls.policy.getD policy)
  refine .bind ((hsilent.ends w).mono (fun entries w' hsame => ?_) fun _ _ hsame => hsame)
  refine .bind (pushIfAsked_queues hq htake _ _ fun w'' hqueue _ => .pure ?_)
  rw [hqueue, hsame]

def nestedTelling (policy : Policy) (assetId : String) (payload : Json.Object) :
    Run σ (Account × Outcome) := do
  createAccount (← nestedPayload assetId payload) policy

theorem nestedTelling_queues (policy : Policy) (assetId : String) (payload : Json.Object) :
    From s (nestedTelling policy assetId payload)
      (fun r w => queue w.store = queue s ++ (pushesFor payload (changedId r)).map kept)
      fun _ w => queue w.store = queue s := by
  rintro w rfl
  refine .bind (nestedPayload_ends _ _ (fun nested _ hkept => ?_) fun _ => rfl)
  rw [← pushesFor_congr (hkept "push_now" (by decide)) (hkept "params" (by decide))]
  exact createAccount_queues hq nested policy w rfl

end Queues

theorem mem_changedIds {entries : List Bulk.Entry} {id : String} :
    id ∈ changedIds entries ↔ ∃ e ∈ entries, e.changed = true ∧ e.account = some id := by
  simp [changedIds, and_assoc]

theorem exists_push_of_mem {payload : Json.Object} (hask : asksPush payload) {ids : List String}
    {id : String} (hid : id ∈ ids) : ∃ p ∈ pushesFor payload ids, id ∈ p.accountIds := by
  have hids : ids.isEmpty = false := by simpa using List.ne_nil_of_mem hid
  rw [pushesFor, hask, hids]
  exact ⟨_, .head _, hid⟩

/-- What has been queued names every account that a bulk with this report created or updated, and
every account that is another one afterwards. -/
def Covered {σ : Type} [Store σ] (queue : σ → List Push) (entries : List Bulk.Entry) (s s' : σ) :
    Prop :=
  ∃ pushed, queue s' = queue s ++ pushed ∧
    (∀ e ∈ entries, e.state = .created ∨ e.state = .updated →
      ∃ id, e.account = some id ∧ ∃ p ∈ pushed, id ∈ p.accountIds) ∧
    ∀ id, account? s' id ≠ account? s id → ∃ p ∈ pushed, id ∈ p.accountIds

theorem bulkCreateAccounts_covered {σ : Type} [Store σ] {queue : σ → List Push}
    {kept : Push → Push} (hq : Queueing queue kept)
    (hkept : ∀ p, (kept p).accountIds = p.accountIds) {dated : Time.Instant → Time.Instant} {s : σ}
    (hreported : ∀ c targets policy (w : World σ), w.store = s →
      Bulk.Reported dated c targets policy w)
    {payload : Json.Object} (hask : asksPush payload) (policy : Policy) :
    From s (bulkCreateAccounts payload policy) (fun entries w => Covered queue entries s w.store)
      fun _ _ => True := by
  refine bulkCreateAccounts_from payload policy (fun _ _ _ => trivial) ?_
  rintro controls rest c targets now htake w rfl
  obtain ⟨entries, s', hcourse, -, hcommitted, hrun⟩ :=
    hreported c targets (controls.policy.getD policy) w rfl
  have hsilent := createDrawing_silent hq c targets (controls.policy.getD policy) w
  unfold storeBulk
  split at hrun
  · exact .bind (.failed hrun trivial)
  rw [hrun] at hsilent
  refine .bind (.ok hrun (.bind (pushIfAsked_queues hq htake _ _ fun w' hqueue haccounts => ?_)))
  have pushed {id : String} (hid : ∃ e ∈ entries, e.changed = true ∧ e.account = some id) :
      ∃ p ∈ (pushesFor payload (changedIds (Bulk.ordered entries))).map kept,
        id ∈ p.accountIds := by
    obtain ⟨e, he, hlisted⟩ := hid
    obtain ⟨p, hp, hmem⟩ := exists_push_of_mem hask
      (mem_changedIds.mpr ⟨e, Bulk.mem_ordered.mpr he, hlisted⟩)
    exact ⟨kept p, List.mem_map_of_mem hp, hkept p ▸ hmem⟩
  have hpushed := hqueue.trans (congrArg (· ++ _) hsilent)
  refine .pure ⟨_, hpushed, fun e he hstate => ?_, fun id hid => ?_⟩
  · have he := Bulk.mem_ordered.mp he
    obtain ⟨id, a, haccount, -⟩ := hcommitted e he (by rcases hstate with h | h <;> simp [h])
    exact ⟨id, haccount, pushed ⟨e, he, (hcourse.changed_iff he).mpr hstate, haccount⟩⟩
  · rw [haccounts] at hid
    exact pushed (hcourse.listed hid)

/-- Whatever a bulk that asks for a push returns with has its changes pushed. -/
theorem bulk_changes_pushed (payload : Json.Object) (policy : Policy) (hask : asksPush payload) :
    (∀ (w w' : World Memory) (entries : List Bulk.Entry), w.store.records.Filed →
      bulkCreateAccounts payload policy w = (.ok entries, w') →
      Covered Memory.pushes entries w.store w'.store) ∧
    ∀ (w w' : World Relational) (entries : List Bulk.Entry), w.store.tables.Keys →
      bulkCreateAccounts payload policy w = (.ok entries, w') →
      Covered Relational.queue entries w.store w'.store := by
  constructor
  · intro w w' entries hfiled h
    have hreported (c : Candidate) (targets : List Bulk.Target) (policy : Policy)
        (v : World Memory) (hv : v.store = w.store) : Bulk.Reported id c targets policy v :=
      Bulk.reported_of_bookkeeping Memory.seamless Memory.bookkeeping c targets policy v
        (hv ▸ hfiled)
    exact (bulkCreateAccounts_covered Memory.queueing (fun _ => rfl) hreported hask policy w
      rfl).of_value h
  · intro w w' entries hkeys h
    have hreported (c : Candidate) (targets : List Bulk.Target) (policy : Policy)
        (v : World Relational) (hv : v.store = w.store) :
        Bulk.Reported (Tables.readDate w.store.clock) c targets policy v :=
      Bulk.reported_of_bookkeeping Relational.seamless (Relational.bookkeeping w.store.clock) c
        targets policy v ⟨hv ▸ hkeys, congrArg Relational.clock hv⟩
    exact (bulkCreateAccounts_covered Relational.queueing (fun _ => rfl) hreported hask policy w
      rfl).of_value h

def appOn (assets : List String) : Json.Object :=
  [("assets", .list (assets.map .text)), ("push_now", .bool true), ("username", .text "app")]

theorem bulk_changes_pushed_app :
    let w : World Memory := after hostOperations ⟨Memory.empty, countedDraws, 0⟩
    let v : World Relational := after hostOperations ⟨Relational.empty ⟨0, 0⟩, countedDraws, 0⟩
    (∃ entries w', bulkCreateAccounts (appOn ["ii"]) .error w = (.ok entries, w') ∧
      Covered Memory.pushes entries w.store w'.store ∧
      w'.store.pushes.map (·.accountIds) = [["iiiiii"]]) ∧
    ∃ entries v', bulkCreateAccounts (appOn ["ii"]) .error v = (.ok entries, v') ∧
      Covered Relational.queue entries v.store v'.store ∧
      (Relational.queue v'.store).map (·.accountIds) = [["iiiiii"]] := by
  intro w v
  have hcovered := bulk_changes_pushed (appOn ["ii"]) .error (by decide)
  constructor
  · have hok : (bulkCreateAccounts (appOn ["ii"]) .error w).1.isOk = true ∧
        (bulkCreateAccounts (appOn ["ii"]) .error w).2.store.pushes.map (·.accountIds) =
          [["iiiiii"]] := by decide +kernel
    match h : bulkCreateAccounts (appOn ["ii"]) .error w with
    | (.ok entries, w') =>
      rw [h] at hok
      have hfiled := (memory_sound ⟨countedDraws, 0⟩ hostOperations).1.1
      exact ⟨entries, w', rfl, hcovered.1 w w' entries hfiled h, hok.2⟩
    | (.error _, _) => rw [h] at hok; cases hok.1
  · have hok : (bulkCreateAccounts (appOn ["ii"]) .error v).1.isOk = true ∧
        (Relational.queue (bulkCreateAccounts (appOn ["ii"]) .error v).2.store).map
          (·.accountIds) = [["iiiiii"]] := by decide +kernel
    match h : bulkCreateAccounts (appOn ["ii"]) .error v with
    | (.ok entries, v') =>
      rw [h] at hok
      have hkeys := (relational_sound ⟨countedDraws, 0⟩ ⟨0, 0⟩ hostOperations).1.1.1
      exact ⟨entries, v', rfl, hcovered.2 v v' entries hkeys h, hok.2⟩
    | (.error _, _) => rw [h] at hok; cases hok.1

def failedEntries : Except Error (List Bulk.Entry) → List Bulk.Entry
  | .error (.bulkFailed entries) => entries
  | _ => []

/-- Where a bulk fails with its report, the account that it has created before and leaves in the
store is not pushed. Here it is given one asset twice, and fails on the second under the error
policy. -/
theorem unpushed_after_failed_bulk :
    let w : World Memory := after hostOperations ⟨Memory.empty, countedDraws, 0⟩
    let v : World Relational := after hostOperations ⟨Relational.empty ⟨0, 0⟩, countedDraws, 0⟩
    let failed := bulkCreateAccounts (appOn ["ii", "ii"]) .error w
    let failed' := bulkCreateAccounts (appOn ["ii", "ii"]) .error v
    ((failedEntries failed.1).map (·.asset) = ["ii"] ∧ account? w.store "iiiiii" = none ∧
      (account? failed.2.store "iiiiii").isSome ∧ failed.2.store.pushes.isEmpty) ∧
    (failedEntries failed'.1).map (·.asset) = ["ii"] ∧ account? v.store "iiiiii" = none ∧
      (account? failed'.2.store "iiiiii").isSome ∧ (Relational.queue failed'.2.store).isEmpty := by
  -- The order of a report is a sort, which the kernel cannot run; its equation it can.
  simp only [bulkCreateAccounts, Bulk.createDrawing, Bulk.create, Bulk.conclude_eq]
  decide +kernel

theorem createNested_memory (assetId : String) (policy : Policy) (payload : Json.Object)
    (w : World Memory) :
    Ends (createNested assetId policy payload) w
      (fun _ w' => (¬ asksPush payload → w'.store.pushes = w.store.pushes) ∧
        Store.asset? w'.store = Store.asset? w.store)
      fun _ w' => w'.store.pushes = w.store.pushes := by
  refine .bind (nestedPayload_ends _ _ (fun nested _ hkept => ?_) fun _ => rfl)
  have hpush := pushesFor_congr (hkept "push_now" (by decide)) (hkept "params" (by decide))
  have hqueue := createAccount_queues Memory.queueing nested policy w rfl
  have hsame := (createAccount_enclosing Memory.enclosing_onAccounts (fun _ hc => hc) nested
    policy).ends w
  refine .bind <|
    (hqueue.and hsame).mono (fun r w' h => .pure ⟨fun hask => ?_, h.2.asset⟩) fun _ _ h => h.1
  rw [h.1, hpush, pushesFor_of_silent (Bool.eq_false_iff.mpr hask), List.map_nil, List.append_nil]

/-- The nested accounts of an asset are created one by one. Where one of them fails, what is left in
the queue was queued for those before it. -/
theorem mapM_createNested_memory (assetId : String) (policy : Policy)
    (payloads : List Json.Object) (hasks : ∀ payload ∈ payloads.dropLast, ¬ asksPush payload)
    (w : World Memory) :
    Ends (payloads.mapM (createNested assetId policy)) w
      (fun _ w' => Store.asset? w'.store = Store.asset? w.store)
      fun _ w' => w'.store.pushes = w.store.pushes := by
  induction payloads generalizing w with
  | nil => exact .pure rfl
  | cons payload rest ih =>
    rw [List.mapM_cons]
    refine .bind ((createNested_memory assetId policy payload w).mono ?_ fun _ _ h => h)
    rintro a w' ⟨hpushes, hassets⟩
    cases rest with
    | nil => exact .pure hassets
    | cons next rest =>
      have hsame := hpushes (hasks payload (.head _))
      have hrest := ih (fun p hp => hasks p (.tail _ hp)) w'
      exact .bind (hrest.mono (fun as w'' h => .pure (h.trans hassets)) fun _ _ h => h.trans hsame)

theorem storeAsset_memory (draft : Asset.Draft) (platform : Platform) (protocols : List Protocol)
    (labels : List Label) (paths : List String) (policy : Policy) (d : Draw)
    (hasks : ∀ payload ∈ draft.accounts.dropLast, ¬ asksPush payload) (w : World Memory) :
    Ends (storeAsset draft platform protocols labels paths policy d) w (fun _ _ => True)
      fun _ w' => w'.store.pushes = w.store.pushes := by
  -- Behind its nested accounts an asset is still there, so nothing can fail any more.
  have hT := Memory.queueing.allowing
  have hnodes := Within.mapM hT.toPreorder (Node.ensure_allowing hT fun _ => trivial) paths
  refine .bind ((hnodes.ends w).mono (fun nodes w₁ hsame => ?_) fun _ _ hsame => hsame)
  refine .bind (.write (fun _ m hins => ?_) fun e m hins =>
    (Memory.queueing.insertAsset hins).trans hsame)
  have hpushes := (Memory.queueing.insertAsset hins).trans hsame
  have hmade := mapM_createNested_memory d.id policy draft.accounts hasks ⟨m, w₁.supply⟩
  refine .bind (hmade.mono (fun made w₂ hassets => ?_) fun _ _ h => h.trans hpushes)
  have hstored : Store.asset? w₂.store d.id = some _ :=
    (congrFun hassets d.id).trans (Memory.insertAsset_stored hins)
  refine .bind (.ask (.bind ?_))
  rw [hstored]
  exact .pure (.pure trivial)

/-- An asset whose nested accounts do not ask for a push, unless it be the last of them, is created
or leaves the queue as it was. -/
theorem failed_creation_queues_nothing (draft : Asset.Draft) (org : String) (policy : Policy)
    (hasks : ∀ payload ∈ draft.accounts.dropLast, ¬ asksPush payload) {w w' : World Memory}
    {e : Error} (h : createAsset draft org policy w = (.error e, w')) :
    w'.store.pushes = w.store.pushes := by
  suffices From w.store (createAsset draft org policy) (fun _ _ => True)
      fun _ w' => w'.store.pushes = w.store.pushes from (this w rfl).of_error h
  rw [createAsset_eq]
  refine createAssetWith_from _ draft org (fun e w h => h ▸ rfl) ?_
  rintro platform protocols labels paths d w₁ hw₁
  rw [← hw₁]
  exact .transaction (storeAsset_memory draft platform protocols labels paths policy d hasks w₁)

def pushingLast : Asset.Draft := { collidingDraft with accounts :=
  [[("username", .text "root")], [("push_now", .bool true), ("username", .text "root")]] }

theorem failed_creation_queues_nothing_colliding :
    (∀ payload ∈ pushingLast.accounts.dropLast, ¬ asksPush payload) ∧
    ∃ e w', createAsset pushingLast "org" .error (platformOnly Memory.empty) = (.error e, w') ∧
      w'.store.pushes = (platformOnly Memory.empty).store.pushes := by
  have hasks : ∀ payload ∈ pushingLast.accounts.dropLast, ¬ asksPush payload := by
    decide +kernel
  have hfail :
      (createAsset pushingLast "org" .error (platformOnly Memory.empty)).1.isOk = false := by
    decide +kernel
  refine ⟨hasks, ?_⟩
  match h : createAsset pushingLast "org" .error (platformOnly Memory.empty) with
  | (.error e, w') => exact ⟨e, w', rfl, failed_creation_queues_nothing _ _ _ hasks h⟩
  | (.ok _, _) => rw [h] at hfail; cases hfail

def pushingFirst : Asset.Draft := { pushingLast with accounts := pushingLast.accounts.reverse }

/-- The push of an account that was taken back stays in the queue. -/
theorem push_of_reverted_account :
    let w : World Memory := platformOnly Memory.empty
    let r := createAsset pushingFirst "org" .error w
    r.1.isOk = false ∧ w.store.pushes.isEmpty ∧ r.2.store.pushes.map (·.accountIds) = [["iiii"]] ∧
      account? r.2.store "iiii" = none := by
  decide +kernel

end Service

end Custody
