import Custody.Proofs.Service.Pushes

/-!
The outbox of a whole run. What is queued follows from what the operations returned: one push for
each written account that was to be pushed, in the order of the writes. For the accounts nested in
an asset this takes what the reply leaves out, what became of each of them.
-/
namespace Custody

open Run Store

namespace Run

variable {σ α β γ : Type}

theorem transaction_map [Store σ] (f : α → β) (g : Run σ α) :
    Run.transaction (f <$> g) = f <$> Run.transaction g := by
  rw [map_eq_pure_bind, map_eq_pure_bind, transaction_bind_pure]

theorem mapM_map (f : α → β) (g : γ → Run σ α) (l : List γ) :
    (l.mapM fun c => f <$> g c) = List.map f <$> l.mapM g := by
  induction l with
  | nil => rfl
  | cons c rest ih =>
    simp only [List.mapM_cons, ih, bind_map_left, map_bind, map_pure, List.map_cons]

end Run

namespace Service

section Telling

variable {σ α β : Type} [Store σ]

theorem createNested_eq (policy : Policy) :
    (createNested · policy : String → Json.Object → Run σ Account) =
      fun assetId payload => (·.1) <$> nestedTelling policy assetId payload := by
  funext assetId payload
  unfold createNested nestedTelling
  simp only [map_eq_pure_bind, bind_assoc]

theorem storeAssetWith_map (f : α → β) (nested : String → Json.Object → Run σ α)
    (draft : Asset.Draft) (platform : Platform) (protocols : List Protocol) (labels : List Label)
    (paths : List String) (d : Draw) :
    storeAssetWith (fun id payload => f <$> nested id payload) draft platform protocols labels
        paths d =
      (fun r => (r.1, r.2.map f)) <$> storeAssetWith nested draft platform protocols labels paths
        d := by
  unfold storeAssetWith
  simp only [mapM_map, map_bind, bind_map_left, map_pure]

theorem createAssetWith_map (f : α → β) (nested : String → Json.Object → Run σ α)
    (draft : Asset.Draft) (org : String) :
    createAssetWith (fun id payload => f <$> nested id payload) draft org =
      (fun r => (r.1, r.2.map f)) <$> createAssetWith nested draft org := by
  unfold createAssetWith
  dsimp only
  split
  · rfl
  · simp only [storeAssetWith_map, transaction_map, map_bind]

/-- The operation, with what became of the accounts nested in an asset behind its reply. -/
def Operation.runTelling : Operation → Run σ (Reply × List (Account × Outcome))
  | .createAsset draft org policy => do
    let (asset, made) ← createAssetWith (nestedTelling policy) draft org
    return (.asset asset (made.map (·.1)), made)
  | op => do return (← op.run, [])

theorem Operation.run_eq_telling (op : Operation) :
    (op.run : Run σ Reply) = (·.1) <$> op.runTelling := by
  cases op with
  | createAsset draft org policy =>
    simp only [run, runTelling, createAsset_eq, createNested_eq, createAssetWith_map, bind_map_left,
      map_bind, map_pure]
  | _ => simp only [runTelling, map_bind, map_pure, bind_pure]

theorem Operation.runTelling_apply (op : Operation) (w : World σ) :
    op.run w = ((op.runTelling w).1.map (·.1), (op.runTelling w).2) := by
  rw [op.run_eq_telling, map_eq_pure_bind, bind_apply]
  cases op.runTelling w with
  | mk r w' => cases r <;> rfl

/-- What an operation that comes to this has to queue. -/
def Operation.pushes :
    Operation → Except Error (Reply × List (Account × Outcome)) → List Push
  | .createAccount payload _, .ok (.account a outcome, _) =>
    pushesFor payload (changedId (a, outcome))
  | .updateAccount _ payload, .ok (.updated a, _) => pushesFor payload [a.id]
  | .bulkCreateAccounts payload _, .ok (.report entries, _) =>
    pushesFor payload (changedIds entries)
  | .createAsset draft _ _, .ok (_, made) =>
    (draft.accounts.zip made).flatMap fun (payload, r) => pushesFor payload (changedId r)
  | _, _ => []

def Operation.Queued (queue : σ → List Push) (kept : Push → Push) (op : Operation) (s : σ)
    (r : Except Error (Reply × List (Account × Outcome))) (w' : World σ) : Prop :=
  queue w'.store = queue s ++ (op.pushes r).map kept

def tellings : List Operation → World σ → List (Except Error (Reply × List (Account × Outcome)))
  | [], _ => []
  | op :: rest, w => (op.runTelling w).1 :: tellings rest (op.runTelling w).2

theorem tellings_replies (ops : List Operation) (w : World σ) :
    (tellings ops w).map (·.map (·.1)) = (trace ops w).map (·.1) := by
  induction ops generalizing w with
  | nil => rfl
  | cons op rest ih => simp only [tellings, trace, List.map_cons, ih, op.runTelling_apply w]

end Telling

section Queues

variable {σ : Type} {queue : σ → List Push} {kept : Push → Push}

theorem Operation.queued_of_same {op : Operation} {s : σ}
    {r : Except Error (Reply × List (Account × Outcome))} {w' : World σ}
    (hsame : queue w'.store = queue s) (hnone : op.pushes r = []) :
    op.Queued queue kept s r w' := by
  rw [Queued, hsame, hnone, List.map_nil, List.append_nil]

theorem Operation.queued_of_silent {op : Operation} {α : Type} {f : Run σ α} {reply : α → Reply}
    (hf : Within (fun w w' : World σ => queue w'.store = queue w.store) f)
    (hnone : ∀ r, op.pushes r = []) (w : World σ) :
    Ends ((f >>= fun a => pure (reply a)) >>= fun r => pure (r, [])) w
      (fun r => op.Queued queue kept w.store (.ok r))
      fun e => op.Queued queue kept w.store (.error e) :=
  .bind (.bind ((hf.ends w).mono
    (fun _ _ hsame => .pure (.pure (queued_of_same hsame (hnone _))))
    fun _ _ hsame => queued_of_same hsame (hnone _)))

variable [Store σ] (hq : Queueing queue kept)

include hq

theorem mapM_nestedTelling_queues (policy : Policy) (assetId : String)
    (payloads : List Json.Object) (w : World σ) :
    Returns (payloads.mapM (nestedTelling policy assetId)) w fun made w' =>
      queue w'.store = queue w.store ++
        ((payloads.zip made).flatMap fun (payload, r) =>
          pushesFor payload (changedId r)).map kept := by
  induction payloads generalizing w with
  | nil => exact .pure (by simp)
  | cons payload rest ih =>
    rw [List.mapM_cons]
    refine (nestedTelling_queues hq policy assetId payload w rfl).returns.followed ?_
    intro r w' hfirst
    refine (ih w').followed fun made w'' hrest => .pure ?_
    rw [hrest, hfirst, List.zip_cons_cons, List.flatMap_cons, List.map_append, List.append_assoc]

theorem createAssetWith_queues (draft : Asset.Draft) (org : String) (policy : Policy)
    (w : World σ) :
    Returns (createAssetWith (nestedTelling policy) draft org) w fun r w' =>
      queue w'.store = queue w.store ++
        ((draft.accounts.zip r.2).flatMap fun (payload, r) =>
          pushesFor payload (changedId r)).map kept := by
  have hT := hq.allowing
  refine createAssetWith_from _ draft org (fun _ _ _ => trivial) ?_ w rfl
  intro platform protocols labels paths d w₁ hw₁
  rw [← hw₁]
  have hnodes := Within.mapM hT.toPreorder (Node.ensure_allowing hT fun _ => trivial) paths
  refine .transaction ((hnodes.ends _).returns.followed fun nodes w₂ hentered => ?_)
  refine .bind (.write fun _ s hins => ?_)
  refine (mapM_nestedTelling_queues hq policy d.id draft.accounts ⟨s, w₂.supply⟩).followed ?_
  intro made w₃ hmade
  refine .find fun stored _ => .pure ?_
  rw [hq.commit, hmade, hq.insertAsset hins, hentered, hq.enter]

/-- An operation queues what its result tells of, behind what was queued before. -/
theorem Operation.run_queues (hr : Reverting fun s s' : σ => queue s' = queue s) (op : Operation)
    (w : World σ) : queue (op.run w).2.store =
      queue w.store ++ (op.pushes (op.runTelling w).1).map kept := by
  suffices Ends op.runTelling w (fun r => op.Queued queue kept w.store (.ok r))
      fun e => op.Queued queue kept w.store (.error e) by
    rw [op.runTelling_apply]
    exact this.total (P := op.Queued queue kept w.store)
  have hT := hq.allowing
  cases op with
  | createPlatform draft =>
    exact queued_of_silent (createPlatform_allowing hT draft fun _ _ _ _ => trivial)
      (fun _ => rfl) w
  | createAsset draft org policy =>
    refine .of_returns (.bind ((createAssetWith_queues hq draft org policy w).mono
      fun r w' hqueue => .pure hqueue)) ?_
    match h : (Operation.createAsset draft org policy).runTelling w with
    | (.ok _, _) => exact .ok h trivial
    | (.error e, w') =>
      -- What the block had queued went with it, as far as the store takes back what it queues.
      have hrun : (Operation.createAsset draft org policy).run w = (.error e, w') := by
        rw [Operation.runTelling_apply, h]
        rfl
      have hundone := (Operation.run_undone hr _ w).of_error hrun
      exact .failed h (queued_of_same (hundone.resolve_left id) rfl)
  | deleteAsset id => exact queued_of_silent (deleteAsset_allowing hT id trivial) (fun _ => rfl) w
  | createAccount payload policy =>
    refine .bind (.bind ((createAccount_queues hq payload policy w rfl).mono ?_ ?_))
    · exact fun r w' hqueue => .pure (.pure hqueue)
    · exact fun e w' hsame => queued_of_same hsame rfl
  | updateAccount id payload =>
    refine .bind (.bind ((updateAccount_queues hq id payload w rfl).mono ?_ ?_))
    · exact fun a w' hqueue => .pure (.pure hqueue)
    · exact fun e w' hsame => queued_of_same hsame rfl
  | bulkCreateAccounts payload policy =>
    refine .bind (.bind ((bulkCreateAccounts_queues hq payload policy w rfl).mono ?_ ?_))
    · exact fun entries w' hqueue => .pure (.pure hqueue)
    · exact fun e w' hsame => queued_of_same hsame rfl
  | createTemplate payload org =>
    exact queued_of_silent (createTemplate_allowing hT (fun _ => trivial) payload org)
      (fun _ => rfl) w
  | deleteTemplate id =>
    exact queued_of_silent (deleteTemplate_allowing hT id trivial) (fun _ => rfl) w

theorem after_queue (hr : Reverting fun s s' : σ => queue s' = queue s) (ops : List Operation)
    (w : World σ) : queue (after ops w).store = queue w.store ++
      ((ops.zip (tellings ops w)).flatMap fun (op, r) => op.pushes r).map kept := by
  induction ops generalizing w with
  | nil => simp [after]
  | cons op rest ih =>
    have hworld : (op.runTelling w).2 = (op.run w).2 := by rw [op.runTelling_apply]
    rw [tellings, List.zip_cons_cons, List.flatMap_cons, List.map_append, ← List.append_assoc,
      ← op.run_queues hq hr w, hworld]
    exact ih (op.run w).2

end Queues

theorem after_reachable {σ : Type} [Store σ] {start : σ} {entries : List σ} (ops : List Operation)
    {w : World σ} (h : Reachable start entries w.store) :
    Reachable start entries (after ops w).store := by
  induction ops generalizing w with
  | nil => exact h
  | cons op rest ih => exact ih (op.reachable w h)

def Operation.payloads : Operation → List Json.Object
  | .createAccount payload _ | .updateAccount _ payload | .bulkCreateAccounts payload _ => [payload]
  | .createAsset draft _ _ => draft.accounts
  | _ => []

/-- The parameters of every push are read back from their text as they were. -/
def Operation.ParamsSurvive (op : Operation) : Prop :=
  ∀ payload ∈ op.payloads, ∀ v, pushParams payload = some v → readColumn v.compact = v

theorem reread_pushesFor {payload : Json.Object}
    (h : ∀ v, pushParams payload = some v → readColumn v.compact = v) (ids : List String) :
    (pushesFor payload ids).map Push.reread = pushesFor payload ids := by
  unfold pushesFor
  split
  · cases hparams : pushParams payload with
    | none => rfl
    | some v => simp [Push.reread, h v hparams]
  · rfl

theorem Operation.reread_pushes {op : Operation} (hop : op.ParamsSurvive)
    (r : Except Error (Reply × List (Account × Outcome))) :
    (op.pushes r).map Push.reread = op.pushes r := by
  have single {payload : Json.Object} (hmem : payload ∈ op.payloads) (ids : List String) :
      (pushesFor payload ids).map Push.reread = pushesFor payload ids :=
    reread_pushesFor (hop payload hmem) ids
  unfold pushes
  split
  · exact single (.head _) _
  · exact single (.head _) _
  · exact single (.head _) _
  · rw [List.map_flatMap]
    refine List.flatMap_congr fun x hx => single ?_ _
    exact (List.of_mem_zip hx).1
  · rfl

/-- Whatever operations have run on an empty database, its outbox lists, newest first, one push for
each write that was to be pushed and that no failure has taken back, and nothing else. -/
theorem outbox_of_run (supply : Supply) (clock : Time.Instant) (ops : List Operation)
    (hops : ∀ op ∈ ops, op.ParamsSurvive) :
    let w : World Relational := ⟨Relational.empty clock, supply⟩
    let t := (after ops w).store.tables
    (tellings ops w).map (·.map (·.1)) = (trace ops w).map (·.1) ∧
    (Tables.listPushTasks none t).map (·.push) =
      ((ops.zip (tellings ops w)).flatMap fun (op, r) => op.pushes r).reverse ∧
    ∀ n, Tables.listPushTasks (some n) t = (Tables.listPushTasks none t).take n := by
  intro w t
  have hreached : Reachable (Relational.empty clock) [] (after ops w).store :=
    after_reachable ops .start
  obtain ⟨hlisted, hlimited⟩ := Relational.listPushTasks_eq hreached
  refine ⟨tellings_replies ops w, ?_, hlimited⟩
  have hqueue := after_queue Relational.queueing
    (Relational.reverting.mono fun _ _ h => congrArg Relational.queue h) ops w
  have hread : ((ops.zip (tellings ops w)).flatMap fun (op, r) => op.pushes r).map Push.reread =
      (ops.zip (tellings ops w)).flatMap fun (op, r) => op.pushes r := by
    rw [List.map_flatMap]
    exact List.flatMap_congr fun x hx =>
      Operation.reread_pushes (hops x.1 (List.of_mem_zip hx).1) x.2
  rw [hlisted, hqueue, hread]
  rfl

/-- A host whose accounts are pushed, first in vain because the second collides with the first, then
with another name for it; and accounts pushed with parameters, skipped and spread by a bulk. -/
def pushingOperations : List Operation :=
  let host (second : String) : Asset.Draft :=
    ⟨"db", "10.0.0.2", "i", none, true, "", none, [], ["/prod"],
      [[("push_now", .bool true), ("username", .text "root")],
        [("push_now", .bool true), ("username", .text second)]]⟩
  let account : Json.Object := [("asset", .text "ii"), ("params", .object [("port", .int 22)]),
    ("push_now", .bool true), ("username", .text "web")]
  hostOperations ++ [
    .createAsset (host "root") "org" .error,
    .createAsset (host "app") "org" .error,
    .createAccount account .error,
    .createAccount account .skip,
    .bulkCreateAccounts (appOn ["ii"]) .error]

theorem outbox_of_run_pushing :
    let w : World Relational := ⟨Relational.empty ⟨0, 0⟩, countedDraws, 0⟩
    let t := (after pushingOperations w).store.tables
    (trace pushingOperations w).map (·.1.isOk) = [true, true, false, true, true, true, true] ∧
    (Relational.queue (after pushingOperations w).store).map
      (fun p => (p.accountIds.length, p.params.isSome)) =
        [(1, false), (1, false), (1, true), (1, false)] ∧
    (tellings pushingOperations w).map (·.map (·.1)) = (trace pushingOperations w).map (·.1) ∧
    (Tables.listPushTasks none t).map (·.push) =
      ((pushingOperations.zip (tellings pushingOperations w)).flatMap fun (op, r) =>
        op.pushes r).reverse ∧
    ∀ n, Tables.listPushTasks (some n) t = (Tables.listPushTasks none t).take n := by
  have hports : ∀ op ∈ pushingOperations, ∀ payload ∈ op.payloads,
      (pushParams payload).all (fun v => isPort v && isPort (readColumn v.compact)) = true := by
    decide +kernel
  refine ⟨by decide +kernel, by decide +kernel,
    outbox_of_run ⟨countedDraws, 0⟩ ⟨0, 0⟩ pushingOperations fun op hop payload hmem v hv => ?_⟩
  have hport := hports op hop payload hmem
  rw [hv, Option.all_some, Bool.and_eq_true] at hport
  exact (eq_of_isPort hport.2).trans (eq_of_isPort hport.1).symm

end Service

end Custody
