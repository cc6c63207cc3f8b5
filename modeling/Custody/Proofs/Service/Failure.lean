import Custody.Proofs.Service.Stages
import Custody.Proofs.Store.Rollback

/-!
A failed operation has no effect on the store. Up to its last write, which is one call or one block,
an operation only reads and draws; behind it nothing can fail. The report of a bulk is the one
exception: it fails the operation after its targets have been stored.
-/
namespace Custody

open Run

namespace Run

variable {σ α β : Type} {same : σ → σ → Prop} {excused : Error → Prop}

def Certain (f : Run σ α) : Prop := ∀ w, ∃ a w', f w = (.ok a, w')

theorem Certain.bind {f : Run σ α} {g : α → Run σ β} (hf : Certain f) (hg : ∀ a, Certain (g a)) :
    Certain (f >>= g) := by
  intro w
  obtain ⟨a, w', h⟩ := hf w
  obtain ⟨b, w'', h'⟩ := hg a w'
  exact ⟨b, w'', by rw [bind_apply, h]; exact h'⟩

theorem Certain.pure (a : α) : Certain (pure a : Run σ α) := fun w => ⟨a, w, rfl⟩

theorem Certain.mapM {f : β → Run σ α} (hf : ∀ b, Certain (f b)) (bs : List β) :
    Certain (bs.mapM f) := by
  induction bs with
  | nil => exact .pure []
  | cons b rest ih =>
    rw [List.mapM_cons]
    exact .bind (hf b) fun a => .bind ih fun as => .pure _

theorem certain_draw : Certain (Run.draw : Run σ Draw) := fun _ => ⟨_, _, rfl⟩

theorem certain_caught (f : Run σ α) : Certain (Run.caught f) := fun w => ⟨(f w).1, (f w).2, rfl⟩

theorem Certain.ends {f : Run σ α} {g : α → Run σ β} {w : World σ} {value : β → World σ → Prop}
    {error : Error → World σ → Prop} (hf : Certain f)
    (hg : ∀ a w', Ends (g a) w' value error) : Ends (f >>= g) w value error := by
  obtain ⟨a, w', h⟩ := hf w
  exact .bind (.ok h (hg a w'))

/-- A step that leaves the store as it was wherever it fails, but for excused errors. -/
def Undone (same : σ → σ → Prop) (excused : Error → Prop) (f : Run σ α) : Prop :=
  ∀ w, Ends f w (fun _ _ => True) fun e w' => excused e ∨ same w.store w'.store

theorem Undone.before {f : Run σ α} {g : α → Run σ β} (hf : Undone same excused f)
    (hg : ∀ a, Certain (g a)) : Undone same excused (f >>= g) := by
  intro w
  refine Ends.bind ((hf w).mono (fun a w' _ => ?_) fun _ _ h => h)
  obtain ⟨b, w'', h⟩ := hg a w'
  exact .ok h trivial

theorem Undone.rewording {f : Run σ α} (g : Error → Error)
    (hf : Undone same (fun _ => False) f) : Undone same excused (Run.rewording g f) := fun w =>
  Ends.rewording ((hf w).mono (fun _ _ h => h) fun _ _ h => h.elim False.elim .inr)

theorem Undone.of_from {f : Run σ α}
    (h : ∀ s, From s f (fun _ _ => True) fun e w => excused e ∨ same s w.store) :
    Undone same excused f := fun w => h w.store w rfl

theorem Undone.from {f : Run σ α} (hf : Undone same excused f) (s : σ) :
    From s f (fun _ _ => True) fun e w => excused e ∨ same s w.store := fun w hw => hw ▸ hf w

variable [Store σ]

theorem Undone.after (hs : Store.Reverting same) {f : Run σ α} {g : α → Run σ β} (hf : Reading f)
    (hg : ∀ a, Undone same excused (g a)) : Undone same excused (f >>= g) := by
  intro w
  have hstore := hf w
  refine Ends.bind ?_
  match h : f w with
  | (.ok a, w') =>
    rw [h] at hstore
    exact .ok h (hstore ▸ hg a w')
  | (.error e, w') =>
    rw [h] at hstore
    exact .failed h (.inr (hstore ▸ hs.refl w.store))

theorem Undone.stop (hs : Store.Reverting same) {s : σ} (e : Error) (w : World σ)
    (h : w.store = s) : excused e ∨ same s w.store := .inr (h ▸ hs.refl _)

theorem Undone.refusing (hs : Store.Reverting same) {c : Prop} [Decidable c] {e : Error}
    {rest : PUnit → Run σ α} (h : Undone same excused (rest ())) :
    Undone same excused (if c then MonadExcept.throw e >>= rest else rest ()) := by
  split
  · exact .after hs (.throw preorder_store e) fun _ => h
  · exact h

theorem Undone.write (hs : Store.Reverting same) (c : Store.Call) {f : σ → Except Error α × σ}
    (h : ∀ s e s', f s = (.error e, s') → c.run s = (.error e, s')) :
    Undone same excused (Run.write f) := fun _ =>
  Ends.write (fun _ _ _ => trivial) fun e s' hf => .inr (hs.call c _ s' e (h _ e s' hf))

theorem Undone.transaction (hs : Store.Reverting same) {f : Run σ α}
    (hf : ∀ T, Closed T → Within T f) : Undone same excused (Run.transaction f) := by
  intro w
  match h : Run.transaction f w with
  | (.ok _, _) => exact .ok h trivial
  | (.error e, w') => exact .failed h (.inr (hs.transaction f hf w w' e h))

end Run

namespace Bulk

variable {σ : Type} [Store σ]

theorem step_certain (c : Candidate) (policy : Policy) (target : Target) (d : Draw) :
    Certain (step c policy target d : Run σ Entry) := by
  have attempt_certain (c : Candidate) (id : String) :
      Certain (attempt c policy id d.now : Run σ (Except Error (Account × Outcome))) :=
    certain_caught _
  unfold step
  split
  · rw [createFor_eq]
    refine .bind (attempt_certain _ _) fun first => .bind ?_ fun last => .pure _
    split
    · split
      · exact attempt_certain _ _
      · exact .pure _
    · exact .pure _
  · exact .pure _

/-- No target stops a bulk; it fails with its report or not at all. -/
theorem createDrawing_error (c : Candidate) (targets : List Target) (policy : Policy)
    (w : World σ) : Ends (createDrawing c targets policy) w (fun _ _ => True)
      fun e _ => ∃ entries, e = .bulkFailed entries := by
  have drawing (t : Target) : Certain (do return (t, ← Run.draw) : Run σ (Target × Draw)) :=
    .bind certain_draw fun _ => .pure _
  refine Certain.ends (.mapM drawing targets) fun drawn _ => ?_
  refine Certain.ends (.mapM (fun td => step_certain c policy td.1 td.2) drawn) fun entries _ => ?_
  refine .of (fun _ _ => trivial) fun e h => ?_
  unfold conclude at h
  dsimp only at h
  split at h
  · cases h
    exact ⟨_, rfl⟩
  · cases h

end Bulk

namespace Service

variable {σ : Type} [Store σ] {same : σ → σ → Prop} {excused : Error → Prop}

theorem pushIfAsked_certain (c : Controls) (ids : List String) (now : Time.Instant) :
    Certain (pushIfAsked c ids now : Run σ Unit) := by
  intro w
  unfold pushIfAsked
  split
  · exact ⟨(), _, rfl⟩
  · exact ⟨(), w, rfl⟩

theorem createAccount_undone (hs : Store.Reverting same) (payload : Json.Object)
    (policy : Policy) :
    Undone same excused (createAccount payload policy : Run σ (Account × Outcome)) := by
  refine .of_from fun s => createAccount_from payload policy (Undone.stop hs) ?_
  refine fun controls rest c d _ => Undone.from (.before ?_ ?_) s
  · exact .transaction hs fun T hT => c.reconcile_within hT _ _ _ _
  · rintro ⟨a, outcome⟩
    dsimp only
    split
    · exact .bind (pushIfAsked_certain _ _ _) fun _ => .pure _
    · exact .pure _

theorem updateAccount_undone (hs : Store.Reverting same) (id : String) (payload : Json.Object) :
    Undone same excused (updateAccount id payload : Run σ Account) := by
  refine .of_from fun s => updateAccount_from id payload (Undone.stop hs) ?_
  refine fun controls rest new now _ => Undone.from (.before ?_ fun _ => ?_) s
  · exact .transaction hs fun T hT => hT.write (.updateAccount new) fun _ => rfl
  · exact .bind (pushIfAsked_certain _ _ _) fun _ => .pure _

theorem createTemplate_undone (hs : Store.Reverting same) (payload : Json.Object) (org : String) :
    Undone same excused (createTemplate payload org : Run σ Template) := by
  have hP := preorder_store (σ := σ)
  refine .after hs (.of hP _) fun _ => .after hs reading_draw fun d => ?_
  refine .after hs (.of hP _) fun name => .after hs (.of hP _) fun username => ?_
  refine .after hs (.of hP _) fun secretType => ?_
  exact .before (.rewording _ (.write hs (.insertTemplate _) fun _ _ _ h => h)) fun _ => .pure _

theorem createPlatform_undone (hs : Store.Reverting same) (draft : Platform.Draft) :
    Undone same excused (createPlatform draft : Run σ Platform) := by
  have hP := preorder_store (σ := σ)
  unfold createPlatform
  refine .refusing hs (.after hs reading_draw fun d => .after hs (.of hP _) fun platform => ?_)
  exact .before (.rewording _ (.write hs (.insertPlatform _) fun _ _ _ h => h)) fun _ => .pure _

theorem createAsset_undone (hs : Store.Reverting same) (draft : Asset.Draft) (org : String)
    (policy : Policy) :
    Undone same excused (createAsset draft org policy : Run σ (Asset × List Account)) := by
  rw [createAsset_eq]
  refine .of_from fun s => createAssetWith_from _ draft org (Undone.stop hs) ?_
  refine fun platform protocols labels paths d => Undone.from (.transaction hs fun T hT => ?_) s
  exact storeAsset_within hT draft platform protocols labels paths policy d

theorem deleting_undone (hs : Store.Reverting same) (c : Store.Call)
    {f : σ → Except Error Bool × σ} {missing : Error}
    (hcall : ∀ s e s', f s = (.error e, s') → c.run s = (.error e, s'))
    (hmissed : ∀ s s', f s = (.ok false, s') → same s s') :
    Undone same excused (do if !(← Run.write f) then throw missing : Run σ Unit) := by
  intro w
  refine Ends.bind (Ends.write (fun found s h => ?_) fun e s h => ?_)
  · cases found with
    | true => exact .ok rfl trivial
    | false => exact .failed rfl (.inr (hmissed _ _ h))
  · exact .inr (hs.call c _ s e (hcall _ e s h))

theorem deleteAsset_undone (hs : Store.Reverting same) (id : String) :
    Undone same excused (deleteAsset id : Run σ Unit) :=
  deleting_undone hs (.deleteAsset id) (fun s e s' h => by rw [Store.Call.run, h]; rfl)
    (hs.missedAsset id)

theorem deleteTemplate_undone (hs : Store.Reverting same) (id : String) :
    Undone same excused (deleteTemplate id : Run σ Unit) :=
  deleting_undone hs (.deleteTemplate id) (fun s e s' h => by rw [Store.Call.run, h]; rfl)
    (hs.missedTemplate id)

theorem bulkCreateAccounts_undone (hs : Store.Reverting same) (payload : Json.Object)
    (policy : Policy) : Undone same (fun e => ∃ entries, e = .bulkFailed entries)
      (bulkCreateAccounts payload policy : Run σ (List Bulk.Entry)) := by
  refine .of_from fun s => bulkCreateAccounts_from payload policy (Undone.stop hs) ?_
  intro controls rest c targets now _
  refine Undone.from (.before (fun w => ?_) fun entries => ?_) s
  · exact (Bulk.createDrawing_error c targets _ w).mono (fun _ _ _ => trivial) fun _ _ => .inl
  · exact .bind (pushIfAsked_certain _ _ _) fun _ => .pure _

/-- The error that tells of stored targets. -/
def Operation.Reports : Operation → Error → Prop
  | .bulkCreateAccounts _ _, e => ∃ entries, e = .bulkFailed entries
  | _, _ => False

theorem Operation.run_undone (hs : Store.Reverting same) (op : Operation) :
    Undone same op.Reports (op.run : Run σ Reply) := by
  cases op with
  | createPlatform draft => exact .before (createPlatform_undone hs draft) fun _ => .pure _
  | createAsset draft org policy =>
    exact .before (createAsset_undone hs draft org policy) fun _ => .pure _
  | deleteAsset id => exact .before (deleteAsset_undone hs id) fun _ => .pure _
  | createAccount payload policy =>
    exact .before (createAccount_undone hs payload policy) fun _ => .pure _
  | updateAccount id payload => exact .before (updateAccount_undone hs id payload) fun _ => .pure _
  | bulkCreateAccounts payload policy =>
    exact .before (bulkCreateAccounts_undone hs payload policy) fun _ => .pure _
  | createTemplate payload org =>
    exact .before (createTemplate_undone hs payload org) fun _ => .pure _
  | deleteTemplate id => exact .before (deleteTemplate_undone hs id) fun _ => .pure _

/-- A failed operation has changed nothing, unless it is a bulk that failed with its report. On the
tables the queued pushes are part of what it has not changed. -/
theorem Operation.failed_unchanged (op : Operation) (e : Error) (he : ¬ op.Reports e) :
    (∀ w w' : World Store.Memory, op.run w = (.error e, w') → w'.store.records = w.store.records) ∧
      ∀ w w' : World Store.Relational, op.run w = (.error e, w') → w'.store = w.store := by
  constructor
  · intro w w' h
    exact ((op.run_undone Store.Memory.reverting w).of_error h).resolve_left he
  · intro w w' h
    exact ((op.run_undone Store.Relational.reverting w).of_error h).resolve_left he

def collidingDraft : Asset.Draft :=
  ⟨"web", "10.0.0.1", "linux", none, true, "", none, [], ["/prod/web"],
    [[("username", .text "root")], [("username", .text "root")]]⟩

def platformOnly {σ : Type} [Store σ] (empty : σ) : World σ :=
  let linux : Platform := ⟨"linux", "Linux", .host, .linux, .utf8, false, false, none, .off,
    [⟨"ssh", 22, true, true, true, .ofList [.password]⟩], [], "", ⟨0, 0⟩⟩
  let draws (n : Nat) : Draw :=
    ⟨.ofList (List.replicate (n + 1) 'i'), .ofList (List.replicate (n + 1) 's'), "token", ⟨0, 0⟩⟩
  ⟨(Store.insertPlatform linux empty).2, draws, 0⟩

theorem Operation.failed_unchanged_colliding :
    let op : Operation := .createAsset collidingDraft "org" .error
    (∃ e w', op.run (platformOnly Store.Memory.empty) = (.error e, w') ∧
      w'.store.records = (platformOnly Store.Memory.empty).store.records) ∧
    ∃ e w', op.run (platformOnly (Store.Relational.empty ⟨0, 0⟩)) = (.error e, w') ∧
      w'.store = (platformOnly (Store.Relational.empty ⟨0, 0⟩)).store := by
  intro op
  constructor
  · have hfail : (op.run (platformOnly Store.Memory.empty)).1.isOk = false := by decide +kernel
    match h : op.run (platformOnly Store.Memory.empty) with
    | (.error e, w') => exact ⟨e, w', rfl, (Operation.failed_unchanged op e id).1 _ _ h⟩
    | (.ok _, _) => rw [h] at hfail; cases hfail
  · have hfail : (op.run (platformOnly (Store.Relational.empty ⟨0, 0⟩))).1.isOk = false := by
      decide +kernel
    match h : op.run (platformOnly (Store.Relational.empty ⟨0, 0⟩)) with
    | (.error e, w') => exact ⟨e, w', rfl, (Operation.failed_unchanged op e id).2 _ _ h⟩
    | (.ok _, _) => rw [h] at hfail; cases hfail

end Service

end Custody
