import Custody.Proofs.Service.Within

/-!
Where the pipelines write. Each of them reads and draws for most of its way and writes in a last
stage, so that what is true of this stage from the store it starts with is true of the pipeline.
-/
namespace Custody

open Run

namespace Run

variable {σ α β : Type} {s : σ} {value : α → World σ → Prop} {error : Error → World σ → Prop}

theorem preorder_store : Preorder fun w w' : World σ => w'.store = w.store where
  refl _ := rfl
  trans h h' := h'.trans h

def Reading (f : Run σ α) : Prop := Within (fun w w' => w'.store = w.store) f

theorem reading_draw : Reading (Run.draw : Run σ Draw) := fun _ => rfl

/-- What the step comes to from every world of this store. -/
def From (s : σ) (f : Run σ α) (value : α → World σ → Prop) (error : Error → World σ → Prop) :
    Prop :=
  ∀ w, w.store = s → Ends f w value error

theorem From.after {f : Run σ β} {g : β → Run σ α} (hf : Reading f)
    (hstop : ∀ e w, w.store = s → error e w) (hg : ∀ b, From s (g b) value error) :
    From s (f >>= g) value error := by
  intro w hw
  refine .bind ((hf.ends w).mono (fun b w' h => ?_) fun e w' h => ?_)
  · exact hg b w' (h.trans hw)
  · exact hstop e w' (h.trans hw)

theorem From.of {r : Except Error β} {g : β → Run σ α}
    (hstop : ∀ e w, w.store = s → error e w) (hg : ∀ b, r = .ok b → From s (g b) value error) :
    From s (Run.of r >>= g) value error := fun w hw =>
  .bind (.of (fun b hb => hg b hb w hw) fun e _ => hstop e w hw)

theorem From.refusing {c : Prop} [Decidable c] {e : Error} {rest : PUnit → Run σ α}
    (hstop : ∀ e w, w.store = s → error e w) (h : From s (rest ()) value error) :
    From s (if c then MonadExcept.throw e >>= rest else rest ()) value error := fun w hw =>
  .refusing (hstop e w hw) fun _ => h w hw

end Run

namespace Service

variable {σ α : Type} [Store σ] {s : σ}

theorem nestedPayload_ends {w : World σ} (assetId : String) (payload : Json.Object)
    {value : Json.Object → World σ → Prop} {error : Error → World σ → Prop}
    (hv : ∀ nested, text? nested "asset" = some assetId →
      (∀ key ∉ ["id", "secret", "asset"], nested.get? key = payload.get? key) → value nested w)
    (he : ∀ e, error e w) : Ends (nestedPayload assetId payload) w value error := by
  have hplaced (o : Json.Object) :
      text? (o.place "asset" (.text assetId)) "asset" = some assetId := by
    unfold text?
    rw [Keyed.get?_place_self]
    rfl
  unfold nestedPayload
  split
  · refine .pure (hv _ (hplaced _) fun key hkey => ?_)
    exact Keyed.get?_place_of_ne _ _ fun h => hkey (by simp [h])
  · refine .find (he _) fun a _ => .pure (hv _ (hplaced _) fun key hkey => ?_)
    simp only [List.mem_cons, List.not_mem_nil, or_false, not_or] at hkey
    rw [Keyed.get?_place_of_ne _ _ hkey.2.2, Keyed.get?_place_of_ne _ _ hkey.2.1,
      Keyed.get?_erase_of_ne _ hkey.1]

def storeCandidate (controls : Controls) (c : Candidate) (d : Draw) (policy : Policy) :
    Run σ (Account × Outcome) := do
  let (account, outcome) ← Run.transaction
    (c.reconcile .nameOrSlot (controls.policy.getD policy) d.id d.now)
  if outcome.changed then pushIfAsked controls [account.id] d.now
  return (account, outcome)

theorem createAccount_from (payload : Json.Object) (policy : Policy)
    {value : Account × Outcome → World σ → Prop} {error : Error → World σ → Prop}
    (hstop : ∀ e w, w.store = s → error e w)
    (hstore : ∀ controls rest c d, Controls.take payload = .ok (controls, rest) →
      From s (storeCandidate controls c d policy) value error) :
    From s (createAccount payload policy) value error := by
  have hP := preorder_store (σ := σ)
  refine .of hstop fun ⟨controls, rest⟩ htake => ?_
  refine .after (withTemplate_within hP _ _ _) hstop fun ⟨values, templateId⟩ => ?_
  refine .after (.of hP _) hstop fun _ => .after (.of hP _) hstop fun assetId => ?_
  refine .after (.of hP _) hstop fun username => .after (.ask hP _) hstop fun asset => ?_
  refine .after (.require hP _ asset) hstop fun _ => ?_
  dsimp only
  split
  case' h_1 => refine .after (checkSuFrom_within hP _ _ _) hstop fun _ => ?_
  all_goals
    refine .after reading_draw hstop fun d => .after (.ask hP _) hstop fun name => ?_
    refine .after (.of hP _) hstop fun candidate => ?_
    exact hstore controls rest candidate d htake

def storeUpdate (controls : Controls) (new : Account) (now : Time.Instant) : Run σ Account := do
  Run.transaction (Run.write (Store.updateAccount new))
  pushIfAsked controls [new.id] now
  return new

theorem updateAccount_from (id : String) (payload : Json.Object)
    {value : Account → World σ → Prop} {error : Error → World σ → Prop}
    (hstop : ∀ e w, w.store = s → error e w)
    (hstore : ∀ controls rest new now, Controls.take payload = .ok (controls, rest) →
      From s (storeUpdate controls new now) value error) :
    From s (updateAccount id payload) value error := by
  have hP := preorder_store (σ := σ)
  refine .of hstop fun ⟨controls, rest⟩ htake => ?_
  refine .after (withTemplate_within hP _ _ _) hstop fun ⟨values, _⟩ => ?_
  refine .after (.of hP _) hstop fun _ => .after (.ask hP _) hstop fun found => ?_
  refine .after (.require hP _ found) hstop fun old => .after reading_draw hstop fun d => ?_
  refine .after (.ask hP _) hstop fun name => .after (.of hP _) hstop fun secretType => ?_
  dsimp only
  split
  · split
    · exact .after (checkSuFrom_within hP _ _ _) hstop fun _ => hstore controls rest _ _ htake
    · exact hstore controls rest _ _ htake
  · exact hstore controls rest _ _ htake

def changedIds (entries : List Bulk.Entry) : List String :=
  (entries.filter (·.changed)).filterMap (·.account)

def storeBulk (controls : Controls) (c : Candidate) (targets : List Bulk.Target) (policy : Policy)
    (now : Time.Instant) : Run σ (List Bulk.Entry) := do
  let entries ← Bulk.createDrawing c targets (controls.policy.getD policy)
  pushIfAsked controls (changedIds entries) now
  return entries

theorem bulkCreateAccounts_from (payload : Json.Object) (policy : Policy)
    {value : List Bulk.Entry → World σ → Prop} {error : Error → World σ → Prop}
    (hstop : ∀ e w, w.store = s → error e w)
    (hstore : ∀ controls rest c targets now, Controls.take payload = .ok (controls, rest) →
      From s (storeBulk controls c targets policy now) value error) :
    From s (bulkCreateAccounts payload policy) value error := by
  have hP := preorder_store (σ := σ)
  refine .of hstop fun ⟨controls, rest⟩ htake => .after (.of hP _) hstop fun ids => ?_
  refine .after (withTemplate_within hP _ _ _) hstop fun ⟨values, templateId⟩ => ?_
  refine .after (.of hP _) hstop fun _ => .after (.of hP _) hstop fun username => ?_
  refine .after (.of hP _) hstop fun candidate => ?_
  refine .after (.mapM hP (Bulk.Target.load_within hP) ids) hstop fun targets => ?_
  exact .after reading_draw hstop fun d => hstore controls rest candidate targets d.now htake

def createAssetWith (nested : String → Json.Object → Run σ α) (draft : Asset.Draft) (org : String) :
    Run σ (Asset × List α) := do
  if (Text.trim draft.name).isEmpty then throw (.invalid (.required "name"))
  let platform ← Run.require (.platform draft.platform)
    (← Run.ask fun s : σ => Store.platform? s draft.platform)
  let demands := platform.demands
  let entries ← Run.of (match draft.protocols with
    | some inputs => inputs.mapM Asset.ProtocolInput.toEntry
    | none => .ok (demands.entriesFor platform))
  let validated ← Run.of (demands.validate entries)
  let protocols ← Run.of (validated.mapM Protocol.Entry.toProtocol)
  let labels ← Run.of (draft.labels.mapM Asset.LabelInput.toLabel)
  let paths := if draft.nodes.isEmpty then ["/" ++ org] else draft.nodes.map (Node.pathUnder org)
  let d ← Run.draw
  Run.transaction (storeAssetWith nested draft platform protocols labels paths d)

theorem createAsset_eq (draft : Asset.Draft) (org : String) (policy : Policy) :
    (createAsset draft org policy : Run σ _) =
      createAssetWith (createNested · policy) draft org := rfl

theorem createAssetWith_from (nested : String → Json.Object → Run σ α) (draft : Asset.Draft)
    (org : String) {value : Asset × List α → World σ → Prop} {error : Error → World σ → Prop}
    (hstop : ∀ e w, w.store = s → error e w)
    (hstore : ∀ platform protocols labels paths d,
      From s (Run.transaction (storeAssetWith nested draft platform protocols labels paths d))
        value error) :
    From s (createAssetWith nested draft org) value error := by
  have hP := preorder_store (σ := σ)
  unfold createAssetWith
  refine .refusing hstop (.after (.ask hP _) hstop fun found => ?_)
  refine .after (.require hP _ found) hstop fun platform => ?_
  refine .after (.of hP _) hstop fun entries => .after (.of hP _) hstop fun validated => ?_
  refine .after (.of hP _) hstop fun protocols => .after (.of hP _) hstop fun labels => ?_
  exact .after reading_draw hstop fun d => hstore platform protocols labels _ d

end Service

end Custody
