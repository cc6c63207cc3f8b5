import Custody.Proofs.Bulk.Report
import Custody.Service

/-!
Every operation is built from draws, calls and blocks, so it passes only through what closed
relations allow. In particular operations lead from reachable stores to reachable stores.
-/
namespace Custody

open Run

variable {σ : Type} [Store σ] {kind : Store.Call → Prop} {T : World σ → World σ → Prop}

theorem Candidate.reconcile_allowing (hT : Allowing kind T)
    (hkind : ∀ a, kind (.insertAccount a) ∧ kind (.updateAccount a)) (c : Candidate)
    (lookup : Lookup) (policy : Policy) (id : String) (now : Time.Instant) :
    Within T (c.reconcile lookup policy id now : Run σ (Account × Outcome)) := by
  have hP := hT.toPreorder
  refine Within.bind hP (.ask hP _) fun found => ?_
  cases found with
  | none =>
    exact .bind hP (hT.write (.insertAccount _) (hkind _).1 fun _ => rfl) fun _ => .pure hP _
  | some a =>
    cases policy with
    | skip => exact .pure hP _
    | update =>
      exact .bind hP (hT.write (.updateAccount _) (hkind _).2 fun _ => rfl) fun _ => .pure hP _
    | error => exact .throw hP _

theorem Candidate.reconcile_within (hT : Closed T) (c : Candidate) (lookup : Lookup)
    (policy : Policy) (id : String) (now : Time.Instant) :
    Within T (c.reconcile lookup policy id now : Run σ (Account × Outcome)) :=
  c.reconcile_allowing hT.allowing (fun _ => ⟨trivial, trivial⟩) lookup policy id now

namespace Node

def make {σ : Type} [Store σ] (path : String) (parentId : Option String) : Run σ Node := do
  let node : Node := ⟨(← Run.draw).id, path, parentId⟩
  Run.write (Store.insertNode node)
  return node

theorem make_allowing (hT : Allowing kind T) (hkind : ∀ n, kind (.insertNode n)) (path : String)
    (parentId : Option String) : Within T (make path parentId : Run σ Node) := by
  have hP := hT.toPreorder
  refine .bind hP hT.drawing fun d => ?_
  exact .bind hP (hT.write (.insertNode _) (hkind _) fun _ => rfl) fun _ => .pure hP _

theorem ensureBelow_within (hP : Preorder T) {above : List (List Char)} {path : List Char}
    (hmake : ∀ q ∈ path :: above, ∀ parentId, Within T (make (.ofList q) parentId : Run σ Node)) :
    Within T (ensureBelow above path : Run σ Node) := by
  induction above generalizing path with
  | nil =>
    unfold ensureBelow
    refine .bind hP (.ask hP _) fun found => ?_
    cases found with
    | some n => exact .pure hP n
    | none => exact .bind hP (.pure hP _) fun parentId => hmake path (.head _) parentId
  | cons parent rest ih =>
    obtain ⟨hpath, habove⟩ := List.forall_mem_cons.mp hmake
    unfold ensureBelow
    refine .bind hP (.ask hP _) fun found => ?_
    cases found with
    | some n => exact .pure hP n
    | none =>
      refine .bind hP ?_ fun parentId => hpath parentId
      rw [map_eq_pure_bind]
      exact .bind hP (ih habove) fun _ => .pure hP _

theorem ensure_allowing (hT : Allowing kind T) (hkind : ∀ n, kind (.insertNode n))
    (fullValue : String) : Within T (ensure fullValue : Run σ Node) :=
  ensureBelow_within hT.toPreorder fun _ _ => make_allowing hT hkind _

end Node

namespace Bulk

theorem Target.load_within (hP : Preorder T) (assetId : String) :
    Within T (Target.load assetId : Run σ Target) := by
  refine .bind hP (.ask hP _) fun a => .bind hP (.require hP _ a) fun asset => ?_
  exact .bind hP (.ask hP _) fun p => .bind hP (.require hP _ p) fun _ => .pure hP _

theorem attempt_enclosing (hT : Enclosing kind T)
    (hkind : ∀ a, kind (.insertAccount a) ∧ kind (.updateAccount a)) (c : Candidate)
    (policy : Policy) (id : String) (now : Time.Instant) :
    Within T (attempt c policy id now : Run σ (Except Error (Account × Outcome))) :=
  .caught (hT.transaction _ (fun _ hU => c.reconcile_within hU .slot policy id now)
    (c.reconcile_allowing hT.toAllowing hkind .slot policy id now))

theorem step_within (hP : Preorder T) (c : Candidate) (policy : Policy) (target : Target) (d : Draw)
    (hattempt : ∀ name id, Within T (attempt { c.forAsset target.assetId with name := name } policy
      id d.now : Run σ (Except Error (Account × Outcome)))) :
    Within T (step c policy target d : Run σ Entry) := by
  -- Both attempts at a target are made with the candidate on its asset, whatever its name.
  unfold step
  split
  · rw [createFor_eq]
    refine .bind hP (hattempt c.name d.id) fun first => .bind hP ?_ fun last => .pure hP _
    split
    · split
      · exact hattempt _ d.spare
      · exact .pure hP _
    · exact .pure hP _
  · exact .pure hP _

theorem createDrawing_within (hP : Preorder T) (hdraw : Within T (Run.draw : Run σ Draw))
    (c : Candidate) (targets : List Target) (policy : Policy)
    (hattempt : ∀ asset name id now, Within T (attempt { c.forAsset asset with name := name } policy
      id now : Run σ (Except Error (Account × Outcome)))) :
    Within T (createDrawing c targets policy : Run σ (List Entry)) := by
  refine .bind hP (.mapM hP (fun t => .bind hP hdraw fun d => .pure hP (t, d)) targets) ?_
  intro drawn
  refine .bind hP (.mapM hP (fun td => ?_) drawn) fun _ => .of hP _
  exact step_within hP c policy td.1 td.2 fun name id => hattempt _ name id _

end Bulk

namespace Service

theorem withTemplate_within (hP : Preorder T) (template : Option String) (schema : Field.Schema)
    (payload : Json.Object) : Within T (withTemplate template schema payload : Run σ _) := by
  cases template with
  | none => exact .pure hP _
  | some id =>
    refine .bind hP (.bind hP (.ask hP _) fun t => ?_) fun _ => .pure hP _
    exact .bind hP (.require hP _ t) fun _ => .pure hP _

theorem checkSuFrom_within (hP : Preorder T) (suFrom assetId : String) (self : Option String) :
    Within T (checkSuFrom suFrom assetId self : Run σ Unit) := by
  refine .refusing hP (.bind hP (.ask hP _) fun o => .bind hP (.require hP _ o) fun a => ?_)
  split
  · exact .throw hP _
  · exact .pure hP _

theorem pushIfAsked_allowing (hT : Allowing kind T) (hkind : ∀ p now, kind (.enqueue p now))
    (c : Controls) (ids : List String) (now : Time.Instant) :
    Within T (pushIfAsked c ids now : Run σ Unit) := by
  unfold pushIfAsked
  split
  · exact hT.write (.enqueue ⟨ids, c.params⟩ now) (hkind _ _) fun _ => rfl
  · exact .pure hT.toPreorder _

section Accounts

variable (hT : Enclosing kind T) (hkind : ∀ c : Store.Call, c.OnAccounts → kind c)

include hT hkind

theorem createAccount_enclosing (payload : Json.Object) (policy : Policy) :
    Within T (createAccount payload policy : Run σ (Account × Outcome)) := by
  have hP := hT.toPreorder
  refine .bind hP (.of hP _) fun ⟨controls, payload⟩ => ?_
  refine .bind hP (withTemplate_within hP _ _ _) fun ⟨values, templateId⟩ => ?_
  refine .bind hP (.of hP _) fun _ => .bind hP (.of hP _) fun assetId => ?_
  refine .bind hP (.of hP _) fun username => .bind hP (.ask hP _) fun asset => ?_
  refine .bind hP (.require hP _ asset) fun _ => ?_
  dsimp only
  split
  case' h_1 => refine .bind hP (checkSuFrom_within hP _ _ _) fun _ => ?_
  all_goals
    refine .bind hP hT.drawing fun d => .bind hP (.ask hP _) fun name => ?_
    refine .bind hP (.of hP _) fun candidate => .bind hP (hT.transaction _ ?_ ?_) fun ⟨a, o⟩ => ?_
    · exact fun _ hU => candidate.reconcile_within hU _ _ _ _
    · exact candidate.reconcile_allowing hT.toAllowing (fun _ => ⟨hkind _ trivial, hkind _ trivial⟩)
        _ _ _ _
    · dsimp only
      split
      · exact .bind hP (pushIfAsked_allowing hT.toAllowing (fun _ _ => hkind _ trivial) _ _ _)
          fun _ => .pure hP _
      · exact .pure hP _

theorem updateAccount_enclosing (id : String) (payload : Json.Object) :
    Within T (updateAccount id payload : Run σ Account) := by
  have hP := hT.toPreorder
  refine .bind hP (.of hP _) fun ⟨controls, payload⟩ => ?_
  refine .bind hP (withTemplate_within hP _ _ _) fun ⟨values, _⟩ => ?_
  refine .bind hP (.of hP _) fun _ => .bind hP (.ask hP _) fun found => ?_
  refine .bind hP (.require hP _ found) fun old => .bind hP hT.drawing fun d => ?_
  refine .bind hP (.ask hP _) fun name => .bind hP (.of hP _) fun secretType => ?_
  have write (new : Account) : Within T (do
      Run.transaction (Run.write (Store.updateAccount new))
      pushIfAsked controls [new.id] d.now
      return new : Run σ Account) := by
    refine .bind hP (hT.transaction _ ?_ ?_) fun _ => ?_
    · exact fun _ hU => hU.write (.updateAccount new) fun _ => rfl
    · exact hT.write (.updateAccount new) (hkind _ trivial) fun _ => rfl
    · exact .bind hP (pushIfAsked_allowing hT.toAllowing (fun _ _ => hkind _ trivial) _ _ _)
        fun _ => .pure hP _
  dsimp only
  split
  · split
    · exact .bind hP (checkSuFrom_within hP _ _ _) fun _ => write _
    · exact write _
  · exact write _

theorem bulkCreateAccounts_enclosing (payload : Json.Object) (policy : Policy) :
    Within T (bulkCreateAccounts payload policy : Run σ (List Bulk.Entry)) := by
  have hP := hT.toPreorder
  refine .bind hP (.of hP _) fun ⟨controls, payload⟩ => .bind hP (.of hP _) fun ids => ?_
  refine .bind hP (withTemplate_within hP _ _ _) fun ⟨values, templateId⟩ => ?_
  refine .bind hP (.of hP _) fun _ => .bind hP (.of hP _) fun username => ?_
  refine .bind hP (.of hP _) fun candidate => ?_
  refine .bind hP (.mapM hP (Bulk.Target.load_within hP) ids) fun targets => ?_
  refine .bind hP hT.drawing fun d => ?_
  refine .bind hP (Bulk.createDrawing_within hP hT.drawing candidate targets _ fun _ _ _ _ =>
    Bulk.attempt_enclosing hT (fun _ => ⟨hkind _ trivial, hkind _ trivial⟩) _ _ _ _)
    fun entries => ?_
  exact .bind hP (pushIfAsked_allowing hT.toAllowing (fun _ _ => hkind _ trivial) _ _ _)
    fun _ => .pure hP _

end Accounts

theorem createTemplate_allowing (hT : Allowing kind T) (hkind : ∀ t, kind (.insertTemplate t))
    (payload : Json.Object) (org : String) :
    Within T (createTemplate payload org : Run σ Template) := by
  have hP := hT.toPreorder
  refine .bind hP (.of hP _) fun _ => .bind hP hT.drawing fun d => ?_
  refine .bind hP (.of hP _) fun name => .bind hP (.of hP _) fun username => ?_
  refine .bind hP (.of hP _) fun secretType => .bind hP ?_ fun _ => .pure hP _
  exact .rewording _ (hT.write (.insertTemplate _) (hkind _) fun _ => rfl)

theorem deleteTemplate_allowing (hT : Allowing kind T) (id : String)
    (hkind : kind (.deleteTemplate id)) : Within T (deleteTemplate id : Run σ Unit) := by
  have hP := hT.toPreorder
  refine .bind hP (hT.write (.deleteTemplate id) hkind fun _ => rfl) fun found => ?_
  split
  · exact .throw hP _
  · exact .pure hP _

theorem createPlatform_allowing (hT : Allowing kind T) (draft : Platform.Draft)
    (hkind : ∀ id now p, Platform.build draft id now = .ok p → kind (.insertPlatform p)) :
    Within T (createPlatform draft : Run σ Platform) := by
  have hP := hT.toPreorder
  unfold createPlatform
  refine .refusing hP (.bind hP hT.drawing fun d => .of_bind hP fun p hbuilt => ?_)
  refine .bind hP (.rewording _ ?_) fun _ => .pure hP _
  exact hT.write (.insertPlatform p) (hkind _ _ p hbuilt) fun _ => rfl

theorem nestedPayload_within (hP : Preorder T) (assetId : String) (payload : Json.Object) :
    Within T (nestedPayload assetId payload : Run σ Json.Object) := by
  unfold nestedPayload
  split
  · exact .pure hP _
  · exact .bind hP (.ask hP _) fun o => .bind hP (.require hP _ o) fun _ => .pure hP _

def createNested (assetId : String) (policy : Policy) (payload : Json.Object) : Run σ Account := do
  let (account, _) ← createAccount (← nestedPayload assetId payload) policy
  return account

def storeAssetWith {α : Type} (nested : String → Json.Object → Run σ α) (draft : Asset.Draft)
    (platform : Platform) (protocols : List Protocol) (labels : List Label) (paths : List String)
    (d : Draw) : Run σ (Asset × List α) := do
  let nodes ← paths.mapM Node.ensure
  Run.write (Store.insertAsset {
    id := d.id, name := draft.name, address := draft.address, platformId := platform.id
    category := platform.category, type := platform.type
    domain := if platform.domainEnabled then draft.domain else none
    isActive := draft.isActive, comment := draft.comment, protocols, labels
    nodeIds := nodes.map (·.id), dateCreated := d.now })
  let made ← draft.accounts.mapM (nested d.id)
  let stored ← Run.require (.asset d.id) (← Run.ask fun s : σ => Store.asset? s d.id)
  return (stored, made)

def storeAsset (draft : Asset.Draft) (platform : Platform) (protocols : List Protocol)
    (labels : List Label) (paths : List String) (policy : Policy) (d : Draw) :
    Run σ (Asset × List Account) :=
  storeAssetWith (createNested · policy) draft platform protocols labels paths d

theorem storeAsset_enclosing (hT : Enclosing kind T)
    (hensure : ∀ path, Within T (Node.ensure path : Run σ Node))
    (hkind : ∀ c : Store.Call, c.OnAccounts → kind c) (draft : Asset.Draft) (platform : Platform)
    (protocols : List Protocol)
    (hasset : ∀ a : Asset, a.platformId = platform.id → a.protocols = protocols →
      kind (.insertAsset a))
    (labels : List Label) (paths : List String) (policy : Policy) (d : Draw) :
    Within T (storeAsset draft platform protocols labels paths policy d : Run σ _) := by
  have hP := hT.toPreorder
  refine .bind hP (.mapM hP hensure _) fun nodes => ?_
  refine .bind hP (hT.write (.insertAsset _) (hasset _ rfl rfl) fun _ => rfl) fun _ => ?_
  refine .bind hP (.mapM hP (fun payload => ?_) _) fun accounts => ?_
  · refine .bind hP (nestedPayload_within hP _ payload) fun nested => ?_
    exact .bind hP (createAccount_enclosing hT hkind nested policy) fun _ => .pure hP _
  · exact .bind hP (.ask hP _) fun o => .bind hP (.require hP _ o) fun _ => .pure hP _

theorem storeAsset_within (hT : Closed T) (draft : Asset.Draft) (platform : Platform)
    (protocols : List Protocol) (labels : List Label) (paths : List String) (policy : Policy)
    (d : Draw) :
    Within T (storeAsset draft platform protocols labels paths policy d : Run σ _) :=
  storeAsset_enclosing hT.enclosing (Node.ensure_allowing hT.allowing fun _ => trivial)
    (fun _ _ => trivial) draft platform protocols (fun _ _ _ => trivial) labels paths policy d

theorem createAsset_enclosing (hT : Enclosing kind T)
    (hensure : ∀ path, Within T (Node.ensure path : Run σ Node))
    (hkind : ∀ c : Store.Call, c.OnAccounts → kind c) (hasset : ∀ a, kind (.insertAsset a))
    (draft : Asset.Draft) (org : String) (policy : Policy) :
    Within T (createAsset draft org policy : Run σ (Asset × List Account)) := by
  have hP := hT.toPreorder
  unfold createAsset
  refine .refusing hP (.bind hP (.ask hP _) fun found => .bind hP (.require hP _ found) ?_)
  intro platform
  refine .bind hP (.of hP _) fun entries => .bind hP (.of hP _) fun validated => ?_
  refine .bind hP (.of hP _) fun protocols => .bind hP (.of hP _) fun labels => ?_
  refine .bind hP hT.drawing fun d => hT.transaction _ (fun U hU => ?_) ?_
  · exact storeAsset_within hU draft platform protocols labels _ policy d
  · exact storeAsset_enclosing hT hensure hkind draft platform protocols (fun a _ _ => hasset a)
      labels _ policy d

theorem deleteAsset_allowing (hT : Allowing kind T) (id : String)
    (hkind : kind (.deleteAsset id)) : Within T (deleteAsset id : Run σ Unit) := by
  have hP := hT.toPreorder
  refine .bind hP (hT.write (.deleteAsset id) hkind fun _ => rfl) fun found => ?_
  split
  · exact .throw hP _
  · exact .pure hP _

/-- Calls other than those for nodes are made one by one; how nodes come about is one step. -/
theorem Operation.run_enclosing (hT : Enclosing kind T)
    (hensure : ∀ path, Within T (Node.ensure path : Run σ Node))
    (hkind : ∀ c : Store.Call, ¬ c.Plants → kind c) (op : Operation) :
    Within T (op.run : Run σ Reply) := by
  have hP := hT.toPreorder
  have haccounts (c : Store.Call) (hc : c.OnAccounts) : kind c := hkind c hc.not_plants
  cases op with
  | createPlatform draft =>
    exact .bind hP (createPlatform_allowing hT.toAllowing draft fun _ _ _ _ => hkind _ id) fun _ =>
      .pure hP _
  | createAsset draft org policy =>
    exact .bind hP (createAsset_enclosing hT hensure haccounts (fun _ => hkind _ id) draft org
      policy) fun _ => .pure hP _
  | deleteAsset id =>
    exact .bind hP (deleteAsset_allowing hT.toAllowing id (hkind _ nofun)) fun _ => .pure hP _
  | createAccount payload policy =>
    exact .bind hP (createAccount_enclosing hT haccounts payload policy) fun _ => .pure hP _
  | updateAccount id payload =>
    exact .bind hP (updateAccount_enclosing hT haccounts id payload) fun _ => .pure hP _
  | bulkCreateAccounts payload policy =>
    exact .bind hP (bulkCreateAccounts_enclosing hT haccounts payload policy) fun _ => .pure hP _
  | createTemplate payload org =>
    exact .bind hP (createTemplate_allowing hT.toAllowing (fun _ => hkind _ id) payload org)
      fun _ => .pure hP _
  | deleteTemplate id =>
    exact .bind hP (deleteTemplate_allowing hT.toAllowing id (hkind _ nofun)) fun _ => .pure hP _

theorem Operation.run_within (hT : Closed T) (op : Operation) :
    Within T (op.run : Run σ Reply) :=
  op.run_enclosing hT.enclosing (Node.ensure_allowing hT.allowing fun _ => trivial)
    fun _ _ => trivial

/-- Operations, failed ones as well, lead to stores that calls and blocks alone can reach. -/
theorem Operation.reachable {start : σ} {entries : List σ} (op : Operation) (w : World σ)
    (h : Store.Reachable start entries w.store) :
    Store.Reachable start entries (op.run w).2.store :=
  op.run_within (closed_reachable start) w entries h

end Service

end Custody
