import Custody.Proofs.Follows
import Custody.Proofs.Secrets.Stores
import Custody.Proofs.Service.Lockstep

/-!
The operations never tell what a secret is. On a store with recoded secrets, given recoded secrets,
each of them does what it does on the store itself: it draws the same, fails with the same error or
succeeds, and what it writes and returns differs in the recoding alone.
-/
namespace Custody

open Run Store

variable {f : String → String} {σ : Type} [Store σ] {recode : σ → σ}

theorem Run.Follows.block {α β : Type} {φ : α → β} {g : Run σ α} {g' : Run σ β}
    (h : Recoding f recode) (hg : Follows recode φ g g') :
    Follows recode φ (Run.transaction g) (Run.transaction g') :=
  .transaction h.enter h.commit h.revert hg

theorem Naming.choose_recode (h : Recoding f recode) (explicit : Option String)
    (fallback asset : String) (current : Option Account) (token : String) (s : σ) :
    choose explicit fallback asset (current.map (Account.recode f)) token (recode s) =
      choose explicit fallback asset current token s := by
  unfold choose
  rw [h.accountByName?, Option.isSome_map, Option.any_map]
  rfl

namespace Candidate

theorem existing?_recode (h : Recoding f recode) (c : Candidate) (lookup : Lookup) (s : σ) :
    (c.recode f).existing? lookup (recode s) = (c.existing? lookup s).map (Account.recode f) := by
  unfold existing?
  dsimp only [Candidate.recode]
  rw [h.accountBySlot?, h.accountByName?]
  cases accountBySlot? s c.assetId c.username c.secretType with
  | some a => rfl
  | none => cases lookup <;> rfl

theorem reconcile_follows (h : Recoding f recode) (hf : f.Injective) (c : Candidate)
    (lookup : Lookup) (policy : Policy) (fresh : String) (now : Time.Instant) :
    Follows recode (Prod.map (Account.recode f) id) (c.reconcile lookup policy fresh now)
      ((c.recode f).reconcile lookup policy fresh now) := by
  refine .bind (.ask (c.existing?_recode h lookup)) fun found => ?_
  cases found with
  | none => exact .bind (.write (h.insertAccount (c.toAccount fresh now))) fun _ => .pure rfl
  | some a =>
    cases policy with
    | skip => exact .pure rfl
    | update =>
      dsimp only [Option.map_some]
      rw [c.applyTo_recode a hf]
      exact .bind (.write (h.updateAccount _)) fun _ => .pure rfl
    | error => exact .throw _

end Candidate

namespace Bulk

theorem Target.load_follows (h : Recoding f recode) (assetId : String) :
    Follows recode id (Target.load assetId) (Target.load assetId) :=
  .find_eq (h.asset? · _) fun _ => .find_eq (h.platform? · _) fun _ => .pure rfl

theorem attempt_follows (h : Recoding f recode) (hf : f.Injective) (c : Candidate)
    (policy : Policy) (fresh : String) (now : Time.Instant) :
    Follows recode (Except.map (Prod.map (Account.recode f) id)) (attempt c policy fresh now)
      (attempt (c.recode f) policy fresh now) :=
  .caught (.block h (c.reconcile_follows h hf .slot policy fresh now))

theorem told_recode (asset : String) (r : Except Error (Account × Outcome)) :
    told asset (r.map (Prod.map (Account.recode f) id)) = told asset r := by
  cases r <;> rfl

theorem createFor_follows (h : Recoding f recode) (hf : f.Injective) (c : Candidate)
    (policy : Policy) (d : Draw) :
    Follows recode id (createFor c policy d) (createFor (c.recode f) policy d) := by
  rw [createFor_eq, createFor_eq]
  refine .bind (attempt_follows h hf c policy _ _) fun first => ?_
  refine .bind (φ := Except.map (Prod.map (Account.recode f) id)) ?_ fun last =>
    .pure (told_recode c.assetId last)
  cases first with
  | ok _ => exact .pure rfl
  | error e => exact .ite .rfl (attempt_follows h hf { c with name := _ } policy _ _) (.pure rfl)

theorem step_follows (h : Recoding f recode) (hf : f.Injective) (c : Candidate) (policy : Policy)
    (target : Target) (d : Draw) :
    Follows recode id (step c policy target d) (step (c.recode f) policy target d) :=
  .ite .rfl (createFor_follows h hf (c.forAsset target.assetId) policy d) (.pure rfl)

theorem createDrawing_follows (h : Recoding f recode) (hf : f.Injective) (c : Candidate)
    (targets : List Target) (policy : Policy) :
    Follows recode id (createDrawing c targets policy)
      (createDrawing (c.recode f) targets policy) := by
  have drawing (t : Target) : Follows recode id (do return (t, ← Run.draw))
      (do return (t, ← Run.draw)) := .bind .draw fun _ => .pure rfl
  refine .bind (.mapM_eq drawing targets) fun drawn => ?_
  refine .bind (.mapM_eq (fun td => step_follows h hf c policy td.1 td.2) drawn) fun entries => ?_
  exact .of_eq rfl

end Bulk

namespace Service

theorem withTemplate_follows (h : Recoding f recode) (template : Option String)
    (schema : Field.Schema) (payload : Json.Object) :
    Follows recode (Prod.map (Keyed.recode f) id) (withTemplate template schema payload)
      (withTemplate template schema (payload.recode f)) := by
  cases template with
  | none => exact .pure rfl
  | some key =>
    have resolved : Follows recode (fun r => ⟨r.templateId, r.values.recode f⟩)
        (Template.resolveStored key schema) (Template.resolveStored key schema) :=
      .find (h.template? · key) fun t => .pure <| by
        rw [Template.resolve, t.valuesFor_recode]
        rfl
    exact .bind resolved fun r => .pure (congrArg (·, _) (Field.merge_recode schema _ _))

theorem checkSuFrom_follows (h : Recoding f recode) (suFrom assetId : String)
    (self : Option String) :
    Follows recode id (checkSuFrom suFrom assetId self) (checkSuFrom suFrom assetId self) := by
  unfold checkSuFrom
  exact .refusing (.find (h.account? · suFrom) fun a => .ite .rfl (.throw _) (.pure rfl))

theorem pushIfAsked_follows (h : Recoding f recode) (c : Controls) (ids : List String)
    (now : Time.Instant) : Follows recode id (pushIfAsked c ids now) (pushIfAsked c ids now) := by
  refine .ite .rfl (.write fun s => ?_) (.pure rfl)
  exact congrArg (fun s => ((Except.ok () : Except Error Unit), s)) (h.enqueue _ now s)

theorem createAccount_follows (h : Recoding f recode) (hf : f.Injective) (payload : Json.Object)
    (policy : Policy) :
    Follows recode (Prod.map (Account.recode f) id) (createAccount payload policy)
      (createAccount (payload.recode f) policy) := by
  refine .bind (.of take_recode) fun ⟨controls, payload⟩ => ?_
  refine .bind (withTemplate_follows h _ _ _) fun ⟨values, templateId⟩ => ?_
  refine .bind_eq (.of_eq (Field.check_recode (by decide) values)) fun _ => ?_
  refine .bind_eq (.of_eq (requiredText_recode (by decide))) fun assetId => ?_
  refine .bind_eq (.of_eq (requiredText_recode (by decide))) fun username => ?_
  refine .find_eq (h.asset? · _) fun _ => ?_
  extract_lets suFrom store suFrom' store'
  have hsame : suFrom' = suFrom := text?_recode_of_ne (by decide)
  have hstore : Follows recode (Prod.map (Account.recode f) id) (store ()) (store' ()) := by
    refine .bind_eq .draw fun d => .bind_eq (.ask_eq fun s => ?_) fun name => ?_
    · rw [text?_recode_of_ne (by decide)]
      exact Naming.choose_recode h _ _ _ none _ s
    dsimp only [id]
    rw [hsame]
    refine .bind (.of (candidateOf_recode ..)) fun candidate => ?_
    refine .bind (.block h (candidate.reconcile_follows h hf _ _ _ _)) fun ⟨account, outcome⟩ => ?_
    refine .ite .rfl (.bind_eq (pushIfAsked_follows h _ _ _) fun _ => .pure rfl) (.pure rfl)
  rw [hsame]
  cases suFrom with
  | none => exact hstore
  | some other => exact .bind_eq (checkSuFrom_follows h _ _ _) fun _ => hstore

theorem updateAccount_follows (h : Recoding f recode) (hf : f.Injective) (key : String)
    (payload : Json.Object) :
    Follows recode (Account.recode f) (updateAccount key payload)
      (updateAccount key (payload.recode f)) := by
  refine .bind (.of take_recode) fun ⟨controls, payload⟩ => ?_
  dsimp -zeta only [Prod.map, id]
  rw [Keyed.erase_recode, Keyed.erase_recode]
  refine .bind (withTemplate_follows h _ _ _) fun ⟨values, _⟩ => ?_
  dsimp -zeta only [Prod.map, id]
  refine .bind_eq (.of_eq (Field.check_recode (by decide) values)) fun _ => ?_
  refine .find (h.account? · key) fun old => .bind_eq .draw fun d => ?_
  refine .bind_eq (.ask_eq fun s => ?_) fun name => ?_
  · rw [text?_recode_of_ne (by decide)]
    exact Naming.choose_recode h _ _ _ (some old) _ s
  refine .bind_eq (.of_eq secretType?_recode) fun secretType => ?_
  rw [applyValues_recode old hf]
  extract_lets new stored store new' stored' store'
  have hstore : Follows recode (Account.recode f) (store ()) (store' ()) := by
    refine .bind_eq (.block h (.write (h.updateAccount stored))) fun _ => ?_
    exact .bind_eq (pushIfAsked_follows h _ _ _) fun _ => .pure rfl
  refine .ite (by rw [Keyed.contains_recode]) ?_ hstore
  have hsame : new'.suFrom = new.suFrom := rfl
  rw [hsame]
  cases new.suFrom with
  | none => exact hstore
  | some other => exact .bind_eq (checkSuFrom_follows h _ _ _) fun _ => hstore

theorem bulkCreateAccounts_follows (h : Recoding f recode) (hf : f.Injective)
    (payload : Json.Object) (policy : Policy) :
    Follows recode id (bulkCreateAccounts payload policy)
      (bulkCreateAccounts (payload.recode f) policy) := by
  refine .bind (.of take_recode) fun ⟨controls, payload⟩ => ?_
  refine .bind_eq (.of_eq assetIds_recode) fun ids => ?_
  dsimp -zeta only [Prod.map, id]
  rw [Keyed.erase_recode]
  refine .bind (withTemplate_follows h _ _ _) fun ⟨values, templateId⟩ => ?_
  refine .bind_eq (.of_eq (Field.check_recode (by decide) values)) fun _ => ?_
  refine .bind_eq (.of_eq (requiredText_recode (by decide))) fun username => ?_
  dsimp -zeta only [Prod.map, id]
  rw [text?_recode_of_ne (by decide)]
  refine .bind (.of (candidateOf_recode ..)) fun candidate => ?_
  refine .bind_eq (.mapM_eq (Bulk.Target.load_follows h) ids) fun targets => ?_
  refine .bind_eq .draw fun d => ?_
  refine .bind_eq (Bulk.createDrawing_follows h hf candidate targets _) fun entries => ?_
  exact .bind_eq (pushIfAsked_follows h _ _ _) fun _ => .pure rfl

theorem createTemplate_follows (h : Recoding f recode) (payload : Json.Object) (org : String) :
    Follows recode (Template.recode f) (createTemplate payload org)
      (createTemplate (payload.recode f) org) := by
  refine .bind_eq (.of_eq (Field.check_recode (by decide) payload)) fun _ => .bind_eq .draw ?_
  intro d
  refine .bind_eq (.of_eq (requiredText_recode (by decide))) fun name => ?_
  refine .bind_eq (.of_eq (requiredText_recode (by decide))) fun username => ?_
  refine .bind_eq (.of_eq secretType?_recode) fun secretType => ?_
  rw [text?_recode_secret, text?_recode_of_ne (by decide), flag?_recode, flag?_recode]
  extract_lets template
  exact .bind_eq (.rewording _ (.write (h.insertTemplate template))) fun _ => .pure rfl

theorem deleteTemplate_follows (h : Recoding f recode) (key : String) :
    Follows recode id (deleteTemplate key) (deleteTemplate key) :=
  .bind_eq (.write (h.deleteTemplate key)) fun _ => .ite .rfl (.throw _) (.pure rfl)

theorem createPlatform_follows (h : Recoding f recode) (draft : Platform.Draft) :
    Follows recode id (createPlatform draft) (createPlatform draft) := by
  unfold createPlatform
  refine .refusing (.bind_eq .draw fun d => .bind_eq (.of_eq rfl) fun platform => ?_)
  exact .bind_eq (.rewording _ (.write (h.insertPlatform platform))) fun _ => .pure rfl

theorem nestedPayload_follows (h : Recoding f recode) (assetId : String) (payload : Json.Object) :
    Follows recode (Keyed.recode f) (nestedPayload assetId payload)
      (nestedPayload assetId (payload.recode f)) := by
  unfold nestedPayload
  rw [Keyed.get?_recode_of_ne payload (by decide)]
  have hasset (o : Json.Object) : (o.recode f).place "asset" (.text assetId) =
      (o.place "asset" (.text assetId)).recode f := by
    rw [← o.place_recode, Json.Value.recodeAt_of_ne (by decide)]
  split
  · exact .pure (hasset payload)
  · refine .find (h.account? · _) fun a => .pure ?_
    have hsecret : Json.Value.ofOption .text (a.recode f).secret =
        (Json.Value.ofOption .text a.secret).recodeAt f "secret" :=
      (Json.Value.recode_ofOption a.secret).symm
    rw [hsecret, Keyed.erase_recode, Keyed.place_recode, hasset]

theorem createNested_follows (h : Recoding f recode) (hf : f.Injective) (assetId : String)
    (policy : Policy) (payload : Json.Object) :
    Follows recode (Account.recode f) (createNested assetId policy payload)
      (createNested assetId policy (payload.recode f)) := by
  refine .bind (nestedPayload_follows h assetId payload) fun nested => ?_
  exact .bind (createAccount_follows h hf nested policy) fun _ => .pure rfl

theorem makeNode_follows (h : Recoding f recode) (path : String) (parentId : Option String) :
    Follows recode id (Node.make path parentId) (Node.make path parentId) :=
  .bind_eq .draw fun _ => .bind_eq (.write (h.insertNode _)) fun _ => .pure rfl

theorem ensureBelow_follows (h : Recoding f recode) (above : List (List Char)) (path : List Char) :
    Follows recode id (Node.ensureBelow above path) (Node.ensureBelow above path) := by
  induction above generalizing path with
  | nil =>
    unfold Node.ensureBelow
    refine .bind_eq (.ask_eq (h.node? · _)) fun found => ?_
    cases found with
    | some node => exact .pure rfl
    | none => exact .bind_eq (.pure rfl) fun parentId => makeNode_follows h _ parentId
  | cons parent rest ih =>
    unfold Node.ensureBelow
    refine .bind_eq (.ask_eq (h.node? · _)) fun found => ?_
    cases found with
    | some node => exact .pure rfl
    | none =>
      refine .bind_eq ?_ fun parentId => makeNode_follows h _ parentId
      rw [map_eq_pure_bind]
      exact .bind_eq (ih parent) fun _ => .pure rfl

theorem storeAsset_follows (h : Recoding f recode) (hf : f.Injective) (draft : Asset.Draft)
    (platform : Platform) (protocols : List Protocol) (labels : List Label) (paths : List String)
    (policy : Policy) (d : Draw) :
    Follows recode (Prod.map id (List.map (Account.recode f)))
      (storeAsset draft platform protocols labels paths policy d)
      (storeAsset (draft.recode f) platform protocols labels paths policy d) := by
  refine .bind_eq (.mapM_eq (fun path => ensureBelow_follows h _ _) paths) fun nodes => ?_
  refine .bind_eq (.write (h.insertAsset _)) fun _ => ?_
  refine .bind (.mapM (createNested_follows h hf _ policy) draft.accounts) fun accounts => ?_
  exact .find_eq (h.asset? · _) fun _ => .pure rfl

theorem createAsset_follows (h : Recoding f recode) (hf : f.Injective) (draft : Asset.Draft)
    (org : String) (policy : Policy) :
    Follows recode (Prod.map id (List.map (Account.recode f))) (createAsset draft org policy)
      (createAsset (draft.recode f) org policy) := by
  unfold createAsset
  refine .refusing (.find_eq (h.platform? · _) fun platform => ?_)
  refine .bind_eq (.of_eq rfl) fun entries => .bind_eq (.of_eq rfl) fun validated => ?_
  refine .bind_eq (.of_eq rfl) fun protocols => .bind_eq (.of_eq rfl) fun labels => ?_
  refine .bind_eq .draw fun d => .block h ?_
  exact storeAsset_follows h hf draft platform protocols labels _ policy d

theorem deleteAsset_follows (h : Recoding f recode) (key : String) :
    Follows recode id (deleteAsset key) (deleteAsset key) :=
  .bind_eq (.write (h.deleteAsset key)) fun _ => .ite .rfl (.throw _) (.pure rfl)

theorem Operation.run_follows (h : Recoding f recode) (hf : f.Injective) (op : Operation) :
    Follows recode (Reply.recode f) op.run (op.recode f).run := by
  cases op with
  | createPlatform draft => exact .bind_eq (createPlatform_follows h draft) fun _ => .pure rfl
  | createAsset draft org policy =>
    exact .bind (createAsset_follows h hf draft org policy) fun _ => .pure rfl
  | deleteAsset key => exact .bind_eq (deleteAsset_follows h key) fun _ => .pure rfl
  | createAccount payload policy =>
    exact .bind (createAccount_follows h hf payload policy) fun _ => .pure rfl
  | updateAccount key payload =>
    exact .bind (updateAccount_follows h hf key payload) fun _ => .pure rfl
  | bulkCreateAccounts payload policy =>
    exact .bind_eq (bulkCreateAccounts_follows h hf payload policy) fun _ => .pure rfl
  | createTemplate payload org =>
    exact .bind (createTemplate_follows h payload org) fun _ => .pure rfl
  | deleteTemplate key => exact .bind_eq (deleteTemplate_follows h key) fun _ => .pure rfl

theorem trace_follows (h : Recoding f recode) (hf : f.Injective) (ops : List Operation)
    (w : World σ) : trace (ops.map (Operation.recode f)) (w.through recode) =
      (trace ops w).map fun x => (x.1.map (Reply.recode f), x.2.through recode) := by
  induction ops generalizing w with
  | nil => rfl
  | cons op rest ih =>
    rw [List.map_cons]
    unfold trace
    rw [op.run_follows h hf w, ih]
    rfl

/-- What a step comes to, and the same step with recoded secrets. The reply is the same but for the
secrets in its records, or the error is the same; all that is shown without revealing a secret is
the same, of the reply as of the store, and so are the queued pushes. -/
structure Unseen (f : String → String) {π : Type} (recode : σ → σ) (queued : σ → List π)
    (labels : Registry) (x y : Except Error Reply × World σ) : Prop where
  reply : y.1 = x.1.map (Reply.recode f)
  views : y.1.map (Reply.views labels) = x.1.map (Reply.views labels)
  world : y.2 = x.2.through recode
  pushes : queued y.2.store = queued x.2.store
  accounts : ∀ asset, (Store.accounts y.2.store asset).map (·.view labels false) =
    (Store.accounts x.2.store asset).map (·.view labels false)
  templates : ∀ types, (Store.templates y.2.store types).map (·.view labels) =
    (Store.templates x.2.store types).map (·.view labels)

theorem trace_unseen {π : Type} {queued : σ → List π} (h : Recoding f recode)
    (hqueued : ∀ s, queued (recode s) = queued s) (hf : f.Injective) (labels : Registry)
    (ops : List Operation) (w : World σ) :
    List.Forall₂ (Unseen f recode queued labels) (trace ops w)
      (trace (ops.map (Operation.recode f)) (w.through recode)) := by
  rw [trace_follows h hf, List.forall₂_map_right_iff, List.forall₂_same]
  rintro ⟨r, w'⟩ -
  refine ⟨rfl, ?_, rfl, hqueued _, fun asset => ?_, fun types => ?_⟩
  · cases r with
    | ok reply => exact congrArg Except.ok (reply.views_recode labels)
    | error e => rfl
  · rw [show (w'.through recode).store = recode w'.store from rfl, h.accounts, List.map_map]
    exact List.map_congr_left fun a _ => a.view_recode labels
  · rw [show (w'.through recode).store = recode w'.store from rfl, h.templates, List.map_map]
    exact List.map_congr_left fun t _ => t.view_recode labels

/-- Nothing but its stored secrets tells the run of any operations on any store from the run of the
same operations, with their secrets recoded, on the store with its secrets recoded. -/
theorem secrets_unseen (f : String → String) (hf : f.Injective) (labels : Registry)
    (ops : List Operation) :
    (∀ w : World Memory, List.Forall₂ (Unseen f (Memory.recode f) (·.pushes) labels) (trace ops w)
      (trace (ops.map (Operation.recode f)) (w.through (Memory.recode f)))) ∧
    ∀ w : World Relational,
      List.Forall₂ (Unseen f (Relational.recode f) (·.tables.pushTasks) labels) (trace ops w)
        (trace (ops.map (Operation.recode f)) (w.through (Relational.recode f))) :=
  ⟨trace_unseen Memory.recoding (fun _ => rfl) hf labels ops,
    trace_unseen Relational.recoding (fun _ => rfl) hf labels ops⟩

def starred (s : String) : String := .ofList ('*' :: s.toList)

theorem starred_injective : starred.Injective := by
  intro s t h
  have hchars := List.cons.inj (String.ofList_injective h)
  exact String.toList_injective hchars.2

def secretOperations : List Operation := [
  .createPlatform ⟨"Linux", .host, .linux, .utf8, false, false, none, .off,
    [⟨"ssh", 22, true, true, true, .ofList [.password]⟩], [], ""⟩,
  .createTemplate [("name", .text "base"), ("secret", .text "pw"), ("username", .text "root")]
    "org",
  .createAsset ⟨"web", "10.0.0.1", "i", none, true, "", none, [], ["/prod"],
    [[("template", .text "ii")]]⟩ "org" .error,
  .createAsset ⟨"db", "10.0.0.2", "i", none, true, "", none, [], ["/prod"],
    [[("id", .text "iiiii"), ("username", .text "root")]]⟩ "org" .error,
  .updateAccount "iiiii" [("push_now", .bool true), ("secret", .text "new")],
  .bulkCreateAccounts [("assets", .list [.text "iii", .text "iiiiii"]), ("secret", .text "new"),
    ("username", .text "root")] .update,
  .createAccount [("asset", .text "iii"), ("secret", .int 5), ("username", .text "root")] .update]

theorem secrets_unseen_starred :
    let w : World Memory := ⟨Memory.empty, countedDraws, 0⟩
    let v : World Relational := ⟨Relational.empty ⟨0, 0⟩, countedDraws, 0⟩
    (trace secretOperations w).map (·.1.isOk) = [true, true, true, true, true, true, false] ∧
    List.Forall₂ (Unseen starred (Memory.recode starred) (·.pushes) .empty)
      (trace secretOperations w) (trace (secretOperations.map (Operation.recode starred)) w) ∧
    List.Forall₂ (Unseen starred (Relational.recode starred) (·.tables.pushTasks) .empty)
      (trace secretOperations v) (trace (secretOperations.map (Operation.recode starred)) v) := by
  intro w v
  have hunseen := secrets_unseen starred starred_injective .empty secretOperations
  exact ⟨by decide +kernel, hunseen.1 w, hunseen.2 v⟩

end Service

end Custody
