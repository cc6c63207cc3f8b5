import Custody.Proofs.Service.Within
import Custody.Proofs.Store.Memory
import Custody.Proofs.Store.Tables

/-!
Which errors a step can end with. The rules on accounts, nodes and labels refuse bad values, unknown
records and conflicts, the stores also duplicates and dangling references; bounds and missing
protocols are reported by none of them.
-/
namespace Custody

/-- The errors of rules and stores that say nothing about a list of protocols. -/
def Error.Ordinary : Error → Prop
  | .invalid _ | .notFound _ | .conflict _ | .duplicate _ | .storage _ => True
  | _ => False

theorem Error.Ordinary.not_range {e : Error} (h : e.Ordinary) (what : Beyond) :
    e ≠ .range what := by
  rintro rfl
  exact h

theorem Error.Ordinary.not_missingProtocols {e : Error} (h : e.Ordinary) (names : List String) :
    e ≠ .missingProtocols names := by
  rintro rfl
  exact h

def Errs {α : Type} (kind : Error → Prop) (x : Except Error α) : Prop := ∀ e, x = .error e → kind e

section Errs

variable {α β : Type} {kind : Error → Prop}

theorem Errs.ok {a : α} : Errs kind (.ok a) := nofun

theorem Errs.error {e : Error} (h : kind e) : Errs kind (.error e : Except Error α) := by
  rintro _ ⟨⟩
  exact h

theorem Errs.bind {x : Except Error α} {f : α → Except Error β} (hx : Errs kind x)
    (hf : ∀ a, Errs kind (f a)) : Errs kind (x >>= f) := by
  cases x with
  | ok a => exact hf a
  | error e => exact .error (hx e rfl)

theorem Errs.error_bind {e : Error} (h : kind e) (f : α → Except Error β) :
    Errs kind (Except.error e >>= f) := .error h

theorem Errs.map {x : Except Error α} (hx : Errs kind x) (f : α → β) : Errs kind (x.map f) := by
  cases x with
  | ok a => exact .ok
  | error e => exact .error (hx e rfl)

theorem Errs.mapM {f : β → Except Error α} {bs : List β} (hf : ∀ b ∈ bs, Errs kind (f b)) :
    Errs kind (bs.mapM f) := by
  induction bs with
  | nil => exact .ok
  | cons b rest ih =>
    obtain ⟨hb, hrest⟩ := List.forall_mem_cons.mp hf
    rw [List.mapM_cons]
    exact .bind hb fun _ => .bind (ih hrest) fun _ => .ok

end Errs

namespace Run

variable {σ α β : Type} {kind : Error → Prop}

def Raises (kind : Error → Prop) (f : Run σ α) : Prop := ∀ w, Errs kind (f w).1

theorem Raises.ends {f : Run σ α} (hf : Raises kind f) (w : World σ) :
    Ends f w (fun _ _ => True) fun e _ => kind e := by
  have h := hf w
  cases hw : f w with
  | mk r w' =>
    rw [hw] at h
    cases r with
    | ok a => exact .ok hw trivial
    | error e => exact .failed hw (h e rfl)

theorem Raises.bind {f : Run σ α} {g : α → Run σ β} (hf : Raises kind f)
    (hg : ∀ a, Raises kind (g a)) : Raises kind (f >>= g) := by
  intro w
  have h := hf w
  rw [bind_apply]
  split
  · next a w' _ => exact hg a w'
  · next e w' hw =>
    rw [hw] at h
    exact .error (h e rfl)

theorem Raises.pure (a : α) : Raises kind (pure a : Run σ α) := fun _ => .ok

theorem Raises.throw {e : Error} (h : kind e) : Raises kind (throw e : Run σ α) := fun _ => .error h

theorem Raises.of {r : Except Error α} (h : Errs kind r) : Raises kind (Run.of r : Run σ α) :=
  fun _ => h

theorem Raises.ask (f : σ → α) : Raises kind (Run.ask f) := fun _ => .ok

theorem Raises.draw : Raises kind (Run.draw : Run σ Draw) := fun _ => .ok

theorem Raises.require {what : Missing} (h : kind (.notFound what)) (o : Option α) :
    Raises kind (Run.require what o : Run σ α) := by
  cases o with
  | some a => exact .pure a
  | none => exact .throw h

theorem Raises.write {f : σ → Except Error α × σ} (h : ∀ s, Errs kind (f s).1) :
    Raises kind (Run.write f) := fun w => h w.store

theorem Raises.refusing {c : Prop} [Decidable c] {e : Error} {rest : PUnit → Run σ α} (he : kind e)
    (h : Raises kind (rest ())) :
    Raises kind (if c then MonadExcept.throw e >>= rest else rest ()) := by
  split
  · exact .bind (.throw he) fun _ => h
  · exact h

theorem Raises.transaction [Store σ] {f : Run σ α} (hf : Raises kind f) :
    Raises kind (Run.transaction f) := by
  intro w
  have h := hf { w with store := Store.enter w.store }
  unfold Run.transaction
  split
  · exact .ok
  · next e w' hw =>
    rw [hw] at h
    exact .error (h e rfl)

theorem Raises.mapM {f : β → Run σ α} (hf : ∀ b, Raises kind (f b)) (bs : List β) :
    Raises kind (bs.mapM f) := by
  induction bs with
  | nil => exact .pure []
  | cons b rest ih =>
    rw [List.mapM_cons]
    exact .bind (hf b) fun _ => .bind ih fun _ => .pure _

end Run

namespace Store

theorem errs_guarded {κ : Type} {kind : Error → Prop} {f : κ → Except Error κ} {k : κ}
    (h : Errs kind (f k)) : Errs kind (guarded f k).1 := by
  unfold guarded
  split
  · exact .ok
  · next e he => exact .error (h e he)

theorem errs_checkUnique {ρ : Type} (indexes : List (Index ρ)) (rows : List ρ) (row : ρ) :
    Errs Error.Ordinary (checkUnique indexes rows row) := by
  intro e h
  obtain ⟨c, rfl⟩ := checkUnique_eq_error h
  trivial

theorem errs_checkReference (holds : Bool) : Errs Error.Ordinary (checkReference holds) := by
  cases holds with
  | true => exact .ok
  | false => exact .error trivial

def Tempered (σ : Type) [Store σ] : Prop :=
  ∀ (c : Call) (s : σ), Errs Error.Ordinary (c.run s).1

namespace Records

theorem errs_checkAccount (a : Account) (r : Records) : Errs Error.Ordinary (checkAccount a r) := by
  intro e h
  obtain ⟨c, rfl⟩ := checkAccount_eq_error h
  trivial

theorem errs_insertPlatform (p : Platform) (r : Records) :
    Errs Error.Ordinary (r.insertPlatform p) := by
  unfold insertPlatform
  split
  · exact .error trivial
  · exact .ok

theorem errs_insertAsset (a : Asset) (r : Records) : Errs Error.Ordinary (r.insertAsset a) := by
  unfold insertAsset
  split
  · exact .error trivial
  · split
    · exact .error trivial
    · exact .ok

theorem errs_insertNode (n : Node) (r : Records) : Errs Error.Ordinary (r.insertNode n) := by
  unfold insertNode
  split
  · exact .error trivial
  · exact .ok

theorem errs_insertTemplate (t : Template) (r : Records) :
    Errs Error.Ordinary (r.insertTemplate t) := by
  unfold insertTemplate
  split
  · exact .error trivial
  · exact .ok

theorem errs_insertAccount (a : Account) (r : Records) :
    Errs Error.Ordinary (r.insertAccount a) := by
  unfold insertAccount
  dsimp only
  split
  · exact .error_bind trivial _
  · split
    · exact .error_bind trivial _
    · exact .bind (errs_checkAccount a r) fun _ => .ok

theorem errs_updateAccount (a : Account) (r : Records) :
    Errs Error.Ordinary (r.updateAccount a) := by
  unfold updateAccount
  dsimp only
  split
  · exact .error_bind trivial _
  · exact .bind (errs_checkAccount a r) fun _ => .ok

end Records

theorem Memory.tempered : Tempered Memory := by
  intro c m
  cases c with
  | insertPlatform p => exact errs_guarded ((Records.errs_insertPlatform p _).map _)
  | insertAsset a => exact errs_guarded ((Records.errs_insertAsset a _).map _)
  | insertNode n => exact errs_guarded ((Records.errs_insertNode n _).map _)
  | insertTemplate t => exact errs_guarded ((Records.errs_insertTemplate t _).map _)
  | insertAccount a => exact errs_guarded ((Records.errs_insertAccount a _).map _)
  | updateAccount a => exact errs_guarded ((Records.errs_updateAccount a _).map _)
  | deleteAsset | deleteTemplate | enqueue => exact .ok

namespace Tables

def Statement.Tempered (f : Statement) : Prop := ∀ t, Errs Error.Ordinary (f t)

theorem tempered_together {fs : List Statement} (h : ∀ f ∈ fs, f.Tempered) :
    Statement.Tempered (together fs) := by
  induction fs with
  | nil => exact fun _ => .ok
  | cons f rest ih =>
    obtain ⟨hf, hrest⟩ := List.forall_mem_cons.mp h
    intro t
    unfold together
    split
    · next t' _ => exact ih hrest t'
    · next e he => exact .error (hf t e he)

theorem tempered_checked {ρ : Type} {indexes : List (Index ρ)} {rows : Tables → List ρ} {row : ρ}
    {holds : Tables → Bool} {put : Tables → Tables} : Statement.Tempered fun t => do
      checkUnique indexes (rows t) row
      checkReference (holds t)
      return put t := fun _ =>
  .bind (errs_checkUnique _ _ _) fun _ => .bind (errs_checkReference _) fun _ => .ok

theorem tempered_unique {ρ : Type} {indexes : List (Index ρ)} {rows : Tables → List ρ} {row : ρ}
    {put : Tables → Tables} : Statement.Tempered fun t => do
      checkUnique indexes (rows t) row
      return put t := fun _ => .bind (errs_checkUnique _ _ _) fun _ => .ok

theorem tempered_ensureLabel (l : Label) : Statement.Tempered (ensureLabel l) := by
  intro t
  unfold ensureLabel
  split <;> exact .ok

theorem tempered_linkLabel (assetId : String) (l : Label) :
    Statement.Tempered (linkLabel assetId l) := by
  intro t
  unfold linkLabel
  split
  · exact .ok
  · dsimp only
    split
    · exact .ok
    · exact .bind (errs_checkReference _) fun _ => .ok

theorem tempered_linkNode (assetId nodeId : String) :
    Statement.Tempered (linkNode assetId nodeId) := by
  intro t
  unfold linkNode
  dsimp only
  split
  · exact .ok
  · exact .bind (errs_checkReference _) fun _ => .ok

theorem tempered_platformStatements (p : Platform) : ∀ f ∈ platformStatements p, f.Tempered := by
  intro f hf
  rcases List.mem_cons.mp hf with rfl | hf
  · exact tempered_unique
  · obtain ⟨q, -, rfl⟩ := List.mem_map.mp hf
    exact tempered_checked

theorem tempered_assetStatements (a : Asset) : ∀ f ∈ assetStatements a, f.Tempered := by
  intro f hf
  simp only [assetStatements, List.mem_append, List.cons_append, List.mem_cons, List.mem_map,
    List.mem_flatMap, List.not_mem_nil, or_false] at hf
  rcases hf with rfl | (⟨q, -, rfl⟩ | ⟨l, -, rfl | rfl⟩) | ⟨n, -, rfl⟩
  · exact tempered_checked
  · exact tempered_checked
  · exact tempered_ensureLabel l
  · exact tempered_linkLabel a.id l
  · exact tempered_linkNode a.id n

theorem tempered_updateAccount (a : Account) : Statement.Tempered (updateAccount a) := by
  intro t
  unfold updateAccount
  split
  · exact .error trivial
  · exact .bind (errs_checkUnique _ _ _) fun _ => .bind (errs_checkReference _) fun _ => .ok

end Tables

theorem Relational.tempered : Tempered Relational := by
  have guarded {f : Tables.Statement} (hf : f.Tempered) (s : Relational) :
      Errs Error.Ordinary (Relational.guarded f s).1 := errs_guarded ((hf s.tables).map _)
  have all {fs : List Tables.Statement} (hfs : ∀ f ∈ fs, f.Tempered) (s : Relational) :
      Errs Error.Ordinary (Relational.performAll fs s).1 := by
    rw [Relational.performAll_eq]
    exact guarded (Tables.tempered_together hfs) s
  intro c s
  cases c with
  | insertPlatform p => exact all (Tables.tempered_platformStatements p) s
  | insertAsset a => exact all (Tables.tempered_assetStatements a) s
  | insertNode n => exact guarded (f := Tables.insertNode n) Tables.tempered_checked s
  | insertTemplate t => exact guarded (f := Tables.insertTemplate t) Tables.tempered_unique s
  | insertAccount a => exact guarded (f := Tables.insertAccount a) Tables.tempered_checked s
  | updateAccount a => exact guarded (Tables.tempered_updateAccount a) s
  | deleteAsset | deleteTemplate | enqueue => exact .ok

end Store

section Values

theorem errs_parse {α : Type} [Choice α] (s : String) :
    Errs Error.Ordinary (Choice.parse s : Except Error α) := by
  unfold Choice.parse
  split
  · exact .ok
  · exact .error trivial

theorem errs_check (schema : Field.Schema) (values : Json.Object) :
    Errs Error.Ordinary (Field.check schema values) := by
  unfold Field.check
  split
  · exact .error trivial
  · exact .ok

theorem errs_toLabel (l : Asset.LabelInput) : Errs Error.Ordinary l.toLabel := by
  cases l with
  | pair l => exact .ok
  | text s =>
    change Errs Error.Ordinary (Label.read s)
    unfold Label.read
    split
    · exact .error trivial
    · exact .ok

end Values

namespace Service

open Run

theorem errs_control {α : Type} {payload : Json.Object} {name wanted : String} {absent : α}
    {parse : Json.Value → Option (Except Error α)}
    (hparse : ∀ v r, parse v = some r → Errs Error.Ordinary r) :
    Errs Error.Ordinary (control payload name wanted absent parse) := by
  unfold control
  split
  · exact .ok
  · exact .ok
  · next v _ _ =>
    cases hv : parse v with
    | none =>
      rw [Option.getD_none]
      exact .error trivial
    | some r =>
      rw [Option.getD_some]
      exact hparse v r hv

theorem errs_take (payload : Json.Object) : Errs Error.Ordinary (Controls.take payload) := by
  refine .bind (errs_control fun v r h => ?_) fun _ => ?_
  · obtain ⟨s, -, rfl⟩ := Option.map_eq_some_iff.mp h
    exact .ok
  refine .bind (errs_control fun v r h => ?_) fun _ => ?_
  · obtain ⟨s, -, rfl⟩ := Option.map_eq_some_iff.mp h
    exact (errs_parse s).map some
  refine .bind (errs_control fun v r h => ?_) fun _ => ?_
  · obtain ⟨b, -, rfl⟩ := Option.map_eq_some_iff.mp h
    exact .ok
  refine .bind (errs_control fun v r h => ?_) fun _ => .ok
  split at h <;> cases h
  exact .ok

theorem errs_requiredText (values : Json.Object) (key : String) :
    Errs Error.Ordinary (requiredText values key) := by
  unfold requiredText
  split
  · exact .ok
  · exact .error trivial

theorem errs_candidateOf (values : Json.Object) (assetId name username : String)
    (suFrom templateId : Option String) :
    Errs Error.Ordinary (candidateOf values assetId name username suFrom templateId) := by
  refine .bind ?_ fun _ => .ok
  unfold secretType?
  split
  · exact .ok
  · exact (errs_parse _).map some

variable {σ : Type} [Store σ]

theorem raises_withTemplate (template : Option String) (schema : Field.Schema)
    (payload : Json.Object) :
    Raises Error.Ordinary (withTemplate template schema payload : Run σ _) := by
  cases template with
  | none => exact .pure _
  | some id =>
    refine .bind (.bind (.ask _) fun t => ?_) fun _ => .pure _
    exact .bind (.require trivial t) fun _ => .pure _

theorem raises_checkSuFrom (suFrom assetId : String) (self : Option String) :
    Raises Error.Ordinary (checkSuFrom suFrom assetId self : Run σ Unit) := by
  refine .refusing trivial (.bind (.ask _) fun o => .bind (.require trivial o) fun a => ?_)
  split
  · exact .throw trivial
  · exact .pure _

theorem raises_pushIfAsked (c : Controls) (ids : List String) (now : Time.Instant) :
    Raises Error.Ordinary (pushIfAsked c ids now : Run σ Unit) := by
  unfold pushIfAsked
  split
  · exact .write fun _ => .ok
  · exact .pure _

theorem raises_nestedPayload (assetId : String) (payload : Json.Object) :
    Raises Error.Ordinary (nestedPayload assetId payload : Run σ Json.Object) := by
  unfold nestedPayload
  split
  · exact .pure _
  · exact .bind (.ask _) fun o => .bind (.require trivial o) fun _ => .pure _

variable (hσ : Store.Tempered σ)

include hσ

theorem raises_reconcile (c : Candidate) (lookup : Lookup) (policy : Policy) (id : String)
    (now : Time.Instant) :
    Raises Error.Ordinary (c.reconcile lookup policy id now : Run σ (Account × Outcome)) := by
  refine .bind (.ask _) fun found => ?_
  cases found with
  | none => exact .bind (.write (hσ (.insertAccount _))) fun _ => .pure _
  | some a =>
    cases policy with
    | skip => exact .pure _
    | update => exact .bind (.write (hσ (.updateAccount _))) fun _ => .pure _
    | error => exact .throw trivial

theorem raises_createAccount (payload : Json.Object) (policy : Policy) :
    Raises Error.Ordinary (createAccount payload policy : Run σ (Account × Outcome)) := by
  refine .bind (.of (errs_take payload)) fun ⟨controls, payload⟩ => ?_
  refine .bind (raises_withTemplate _ _ _) fun ⟨values, templateId⟩ => ?_
  refine .bind (.of (errs_check _ _)) fun _ => .bind (.of (errs_requiredText _ _)) fun assetId => ?_
  refine .bind (.of (errs_requiredText _ _)) fun username => .bind (.ask _) fun asset => ?_
  refine .bind (.require trivial asset) fun _ => ?_
  dsimp only
  split
  case' h_1 => refine .bind (raises_checkSuFrom _ _ _) fun _ => ?_
  all_goals
    refine .bind .draw fun d => .bind (.ask _) fun name => ?_
    refine .bind (.of (errs_candidateOf _ _ _ _ _ _)) fun candidate => ?_
    refine .bind (.transaction (raises_reconcile hσ candidate _ _ _ _)) fun ⟨a, o⟩ => ?_
    dsimp only
    split
    · exact .bind (raises_pushIfAsked _ _ _) fun _ => .pure _
    · exact .pure _

theorem raises_make (path : String) (parentId : Option String) :
    Raises Error.Ordinary (Node.make path parentId : Run σ Node) := by
  refine .bind .draw fun d => ?_
  exact .bind (.write (hσ (.insertNode _))) fun _ => .pure _

theorem raises_ensureBelow (above : List (List Char)) (path : List Char) :
    Raises Error.Ordinary (Node.ensureBelow above path : Run σ Node) := by
  induction above generalizing path with
  | nil =>
    unfold Node.ensureBelow
    refine .bind (.ask _) fun found => ?_
    cases found with
    | some n => exact .pure n
    | none => exact .bind (.pure _) fun parentId => raises_make hσ (.ofList path) parentId
  | cons parent rest ih =>
    unfold Node.ensureBelow
    refine .bind (.ask _) fun found => ?_
    cases found with
    | some n => exact .pure n
    | none =>
      refine .bind ?_ fun parentId => raises_make hσ (.ofList path) parentId
      rw [map_eq_pure_bind]
      exact .bind (ih parent) fun _ => .pure _

theorem raises_storeAsset (draft : Asset.Draft) (platform : Platform) (protocols : List Protocol)
    (labels : List Label) (paths : List String) (policy : Policy) (d : Draw) :
    Raises Error.Ordinary
      (storeAsset draft platform protocols labels paths policy d : Run σ _) := by
  refine .bind (.mapM (fun path => raises_ensureBelow hσ _ _) _) fun nodes => ?_
  refine .bind (.write (hσ (.insertAsset _))) fun _ => .bind (.mapM (fun payload => ?_) _) ?_
  · refine .bind (raises_nestedPayload _ payload) fun nested => ?_
    exact .bind (raises_createAccount hσ nested policy) fun _ => .pure _
  · exact fun _ => .bind (.ask _) fun o => .bind (.require trivial o) fun _ => .pure _

end Service

end Custody
