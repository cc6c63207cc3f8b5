import Custody.Proofs.Protocol.Validation
import Custody.Proofs.Service.Steps
import Custody.Proofs.Store.Listing

/-!
Both stores in lockstep. The creation of an asset runs in a block that either store takes back as a
whole; with it every operation, and so every sequence of operations, does the same on both.
-/
namespace Custody

open Run Store

variable {draws : Nat → Draw} {clock : Time.Instant} {reserved : List Nat} {n : Nat}
  {w : World Memory} {v : World Relational}

namespace Service

theorem nestedPayload_both (h : Related draws clock reserved w v) (assetId : String)
    (payload : Json.Object)
    {value : Json.Object → Json.Object → World Memory → World Relational → Prop}
    {error : Error → Error → World Memory → World Relational → Prop}
    (hv : ∀ r, value r r w v) (he : ∀ e, error e e w v) :
    Both (nestedPayload assetId payload) (nestedPayload assetId payload) w v value error := by
  unfold nestedPayload
  split
  · exact .pure (hv _)
  · exact .find (h.account? _) (fun a _ => .pure (hv _)) he

theorem mapM_createNested_both (h : Related draws clock [] w v) (assetId : String)
    (policy : Policy) (payloads : List Json.Object) :
    Both (payloads.mapM (createNested assetId policy)) (payloads.mapM (createNested assetId policy))
      w v (Arrived draws clock) (Stopped draws clock) := by
  induction payloads generalizing w v with
  | nil => exact .pure ⟨rfl, h⟩
  | cons payload rest ih =>
    rw [List.mapM_cons, List.mapM_cons]
    refine .bind (.bind (nestedPayload_both h assetId payload (fun nested => ?_) h.stop))
    refine .bind ((createAccount_both h nested policy).mono ?_ fun _ _ _ _ h => h)
    rintro ⟨account, outcome⟩ _ w' v' ⟨rfl, h'⟩
    refine .pure (.bind ((ih h').mono ?_ fun _ _ _ _ h => h))
    rintro accounts _ w'' v'' ⟨rfl, h''⟩
    exact .pure ⟨rfl, h''⟩

end Service

namespace Store.Tables

structure Grown (t t' : Tables) : Prop where
  platform : ∀ id, t.hasPlatform id = true → t'.hasPlatform id = true
  node : ∀ id, t.hasNode id = true → t'.hasNode id = true

theorem Grown.refl (t : Tables) : Grown t t := ⟨fun _ h => h, fun _ h => h⟩

theorem Grown.trans {t t' t'' : Tables} (h : Grown t t') (h' : Grown t' t'') : Grown t t'' :=
  ⟨fun id hid => h'.platform id (h.platform id hid), fun id hid => h'.node id (h.node id hid)⟩

theorem Grown.insertNode {t t' : Tables} {n : Node} (h : t.insertNode n = .ok t') :
    Grown t t' ∧ t'.hasNode n.id = true := by
  obtain ⟨-, -, rfl⟩ := insertNode_eq_ok_iff.mp h
  refine ⟨⟨fun _ h => h, fun id hid => ?_⟩, ?_⟩
  · exact hasNode_iff.mpr (exists_mem_append (hasNode_iff.mp hid) [n])
  · exact hasNode_iff.mpr ⟨n, List.mem_append_right _ (List.mem_singleton_self n), rfl⟩

end Store.Tables

namespace Node

def Ensured (draws : Nat → Draw) (clock : Time.Instant) (reserved : List Nat)
    (v : World Relational) (a b : Node) (w' : World Memory) (v' : World Relational) : Prop :=
  a = b ∧ Related draws clock reserved w' v' ∧ Tables.Grown v.store.tables v'.store.tables ∧
    v'.store.tables.hasNode a.id = true

theorem ensured_of_node? (h : Related draws clock reserved w v) {path : String} {node : Node}
    (hfound : Store.node? v.store path = some node) :
    Ensured draws clock reserved v node node w v :=
  ⟨rfl, h, .refl _, Tables.hasNode_iff.mpr ⟨node, List.mem_of_find?_eq_some hfound, rfl⟩⟩

theorem make_both (h : Related draws clock reserved w v) (path : String)
    {parentId : Option String}
    (hparent : ∀ p, parentId = some p → v.store.tables.hasNode p = true) :
    Both (make path parentId) (make path parentId) w v (Ensured draws clock reserved v)
      (Stopped draws clock) := by
  refine h.drawing fun n w' v' h' hsame => ?_
  rw [← hsame] at hparent
  refine .bind (.guarded (h'.mirror.insertNode (h'.not_spent (.head _) (.inl rfl)) hparent)
    ?_ fun c c' => ⟨.duplicate c c', h'.settled⟩)
  intro r t hm ht
  rw [hsame] at ht
  exact .pure ⟨rfl, h'.spend (.inl rfl) hm, Tables.Grown.insertNode ht⟩

theorem ensureBelow_both (h : Related draws clock reserved w v) (above : List (List Char))
    (path : List Char) :
    Both (ensureBelow above path) (ensureBelow above path) w v (Ensured draws clock reserved v)
      (Stopped draws clock) := by
  induction above generalizing path w v with
  | nil =>
    unfold ensureBelow
    refine .bind (.ask ?_)
    rw [h.node?]
    cases hfound : Store.node? v.store (String.ofList path) with
    | some node => exact .pure (ensured_of_node? h hfound)
    | none => exact .bind (.pure (make_both h _ (by simp)))
  | cons parent rest ih =>
    unfold ensureBelow
    refine .bind (.ask ?_)
    rw [h.node?]
    cases hfound : Store.node? v.store (String.ofList path) with
    | some node => exact .pure (ensured_of_node? h hfound)
    | none =>
      dsimp only
      rw [map_eq_pure_bind, map_eq_pure_bind]
      refine .bind (.bind ((ih h parent).mono ?_ fun _ _ _ _ h => h))
      rintro node _ w' v' ⟨rfl, h', hgrown, hstored⟩
      refine .pure ((make_both h' _ ?_).mono ?_ fun _ _ _ _ h => h)
      · rintro _ ⟨⟩
        exact hstored
      · rintro made _ w'' v'' ⟨rfl, h'', hgrown', hmade⟩
        exact ⟨rfl, h'', hgrown.trans hgrown', hmade⟩

theorem mapM_ensure_both (h : Related draws clock reserved w v) (paths : List String) :
    Both (paths.mapM ensure) (paths.mapM ensure) w v
      (fun as bs w' v' => as = bs ∧ Related draws clock reserved w' v' ∧
        Tables.Grown v.store.tables v'.store.tables ∧
        ∀ a ∈ as, v'.store.tables.hasNode a.id = true)
      (Stopped draws clock) := by
  induction paths generalizing w v with
  | nil => exact .pure ⟨rfl, h, .refl _, by simp⟩
  | cons path rest ih =>
    rw [List.mapM_cons, List.mapM_cons]
    refine .bind ((ensureBelow_both h _ _).mono ?_ fun _ _ _ _ h => h)
    rintro a _ w' v' ⟨rfl, h', hgrown, ha⟩
    refine .bind ((ih h').mono ?_ fun _ _ _ _ h => h)
    rintro as _ w'' v'' ⟨rfl, h'', hgrown', has⟩
    exact .pure ⟨rfl, h'', hgrown.trans hgrown',
      List.forall_mem_cons.mpr ⟨hgrown'.node a.id ha, has⟩⟩

end Node

namespace Run

theorem closed_supply {σ : Type} [Store σ] (R : Supply → Supply → Prop) (refl : ∀ p, R p p)
    (trans : ∀ {p q r}, R p q → R q r → R p r)
    (draw : ∀ p : Supply, R p { p with used := p.used + 1 }) :
    Closed fun w w' : World σ => R w.supply w'.supply where
  refl w := refl w.supply
  trans := trans
  draw w := draw w.supply
  call _ w := refl w.supply
  transaction f hf w := by
    have h := hf { w with store := Store.enter w.store }
    unfold Run.transaction
    split
    · next heq => rw [heq] at h; exact h
    · next heq => rw [heq] at h; exact h

theorem closed_used {σ : Type} [Store σ] :
    Closed fun w w' : World σ => w.supply.used ≤ w'.supply.used :=
  closed_supply (fun p q => p.used ≤ q.used) (fun _ => Nat.le_refl _) Nat.le_trans fun _ =>
    Nat.le_succ _

theorem closed_draws {σ : Type} [Store σ] :
    Closed fun w w' : World σ => w'.supply.draws = w.supply.draws :=
  closed_supply (fun p q => q.draws = p.draws) (fun _ => rfl) (fun h h' => h'.trans h) fun _ => rfl

/-- A block around steps that keep the stores the same. Taken back, it leaves its draws spent. -/
theorem Both.block {α : Type} {f : Run Memory α} {g : Run Relational α}
    (h : Related draws clock reserved w v) (hf : ∀ T, Closed T → Within T f)
    (hg : ∀ T, Closed T → Within T g)
    (hbody : ∀ v', v'.store.tables = v.store.tables → Related draws clock reserved w v' →
      Both f g w v' (Arrived draws clock) (Stopped draws clock)) :
    Both (Run.transaction f) (Run.transaction g) w v (Arrived draws clock)
      (Stopped draws clock) := by
  have hentered : Related draws clock reserved w { v with store := Store.enter v.store } :=
    { h with }
  refine .transaction ?_
  cases hbody { v with store := Store.enter v.store } rfl hentered with
  | ok hfw hgv h' => exact .ok hfw hgv ⟨h'.1, { h'.2 with }⟩
  | @error e e' w' v' hfw hgv h' =>
    have hused := hf _ closed_used w
    obtain ⟨t, hframe⟩ := hg _ Relational.closed_frame { v with store := Store.enter v.store }
    rw [hfw] at hused
    rw [hgv] at hframe
    have hreverted : Store.revert v.store v'.store = v.store := by
      rw [hframe]
      exact Relational.revert_enter v.store t
    refine .error hfw hgv ⟨h'.1, ?_⟩
    rw [hreverted]
    exact { h'.2 with
      reading := h.reading
      mirror := h.mirror.mono fun _ ⟨m, hm, _, hid⟩ =>
        ⟨m, Nat.lt_of_lt_of_le hm hused, List.not_mem_nil, hid⟩ }

end Run

namespace Service

theorem insertAsset_both (h : Related draws clock (n :: reserved) w v) {a : Asset}
    (hid : (draws n).Gives a.id) (hplatform : v.store.tables.hasPlatform a.platformId = true)
    (hnames : (a.protocols.map (·.name)).Nodup) (hblank : ∀ q ∈ a.protocols, q.Blank)
    (hnodes : ∀ id ∈ a.nodeIds, v.store.tables.hasNode id = true)
    (hdate : Tables.readDate clock a.dateCreated = a.dateCreated)
    {value : Unit → Unit → World Memory → World Relational → Prop}
    (hv : ∀ w' v', Related draws clock reserved w' v' → value () () w' v') :
    Both (Run.write (Store.insertAsset a)) (Run.write (Store.insertAsset a)) w v value
      (Stopped draws clock) := by
  have hinsert : (Store.insertAsset a : Relational → _) =
      Relational.guarded (Tables.together (Tables.assetStatements a)) :=
    funext (Relational.performAll_eq _)
  rw [hinsert]
  have hnew := h.not_spent (.head _) hid
  exact .guarded (h.mirror.insertAsset hnew hplatform hnames hblank hnodes hdate)
    (fun r t hm _ => hv _ _ (h.spend hid hm)) fun c c' => ⟨.duplicate c c', h.settled⟩

theorem storeAsset_both (h : Related draws clock [n] w v) (draft : Asset.Draft)
    {platform : Platform} {protocols : List Protocol} (labels : List Label) (paths : List String)
    (policy : Policy) (hplatform : v.store.tables.hasPlatform platform.id = true)
    (hnames : (protocols.map (·.name)).Nodup) (hblank : ∀ q ∈ protocols, q.Blank) :
    Both (storeAsset draft platform protocols labels paths policy (draws n))
      (storeAsset draft platform protocols labels paths policy (draws n)) w v
      (Arrived draws clock) (Stopped draws clock) := by
  unfold storeAsset storeAssetWith
  refine .bind ((Node.mapM_ensure_both h paths).mono ?_ fun _ _ _ _ h => h)
  rintro nodes _ w' v' ⟨rfl, h', hgrown, hnodes⟩
  have hnodes : ∀ id ∈ nodes.map (·.id), v'.store.tables.hasNode id = true :=
    List.forall_mem_map.mpr hnodes
  refine .bind (insertAsset_both h' (.inl rfl) (hgrown.platform _ hplatform) hnames hblank hnodes
    ?_ fun w'' v'' h'' => ?_)
  · exact h.genuine.now n
  refine .bind ((mapM_createNested_both h'' _ policy draft.accounts).mono ?_ fun _ _ _ _ h => h)
  rintro accounts _ w₃ v₃ ⟨rfl, h₃⟩
  exact .find (h₃.asset? _) (fun stored _ => .pure ⟨rfl, h₃⟩) h₃.stop

theorem createAsset_both (h : Related draws clock [] w v) (draft : Asset.Draft) (org : String)
    (policy : Policy) :
    Both (createAsset draft org policy) (createAsset draft org policy) w v (Arrived draws clock)
      (Stopped draws clock) := by
  have hstop := h.stop
  unfold createAsset
  refine .refusing hstop fun _ => ?_
  refine .find (h.platform? draft.platform) (fun platform hfound => ?_) hstop
  refine .bind (.of (fun entries _ => .bind (.of (fun validated hvalid => ?_) hstop)) hstop)
  refine .bind (.of (fun protocols hprotocols => .bind (.of (fun labels _ => ?_) hstop)) hstop)
  obtain ⟨hentries, hstored⟩ := Protocol.Entry.mapM_toProtocol hprotocols
  have hnodup : (protocols.map (·.name)).Nodup := by
    rw [← Protocol.Entry.map_name_ofProtocol, hentries]
    exact Protocol.Demands.nodup_of_validate hvalid
  have hblank (q : Protocol) (hq : q ∈ protocols) : q.Blank :=
    (Protocol.Entry.toProtocol_eq_ok_iff.mp (hstored q hq)).2.1
  have hplatform := Relational.hasPlatform_of_platform? hfound
  refine h.drawing fun n w' v' h' hsame => ?_
  refine .block h' (fun T hT => storeAsset_within hT draft platform protocols labels _ policy _)
    (fun T hT => storeAsset_within hT draft platform protocols labels _ policy _)
    fun v'' htables h'' => ?_
  rw [← hsame] at hplatform
  exact storeAsset_both h'' draft labels _ policy (by rwa [htables]) hnodup hblank

inductive Reply.Alike : Reply → Reply → Prop
  | same (r : Reply) : Alike r r
  | report {entries entries' : List Bulk.Entry} :
    List.Forall₂ Bulk.Entry.Alike entries entries' → Alike (.report entries) (.report entries')

/-- What an operation stores as JSON text is read back as it was. -/
def Operation.Survives : Operation → Prop
  | .createPlatform draft =>
    ∀ c, draft.automation.ansibleConfig = some c → readColumn c.compact = c
  | _ => True

theorem Operation.run_both (h : Related draws clock [] w v) {op : Operation} (hop : op.Survives) :
    Both op.run op.run w v
      (fun r r' w' v' => r.Alike r' ∧ Related draws clock [] w' v') (Stopped draws clock) := by
  have replied {α : Type} {f : Run Memory α} {g : Run Relational α} {reply : α → Reply}
      (hboth : Both f g w v (Arrived draws clock) (Stopped draws clock)) :
      Both (f >>= fun a => pure (reply a)) (g >>= fun a => pure (reply a)) w v
        (fun r r' w' v' => r.Alike r' ∧ Related draws clock [] w' v') (Stopped draws clock) := by
    refine .bind (hboth.mono ?_ fun _ _ _ _ h => h)
    rintro a _ w' v' ⟨rfl, h'⟩
    exact .pure ⟨.same _, h'⟩
  cases op <;> dsimp only [run]
  case createPlatform draft => exact replied (createPlatform_both h hop)
  case createAsset draft org policy =>
    exact replied (createAsset_both h draft org policy)
  case deleteAsset id => exact replied (deleteAsset_both h id)
  case createAccount payload policy =>
    exact replied (createAccount_both h payload policy)
  case updateAccount id payload =>
    exact replied (updateAccount_both h id payload)
  case bulkCreateAccounts payload policy =>
    refine .bind ((bulkCreateAccounts_both h payload policy).mono ?_ fun _ _ _ _ h => h)
    rintro es es' w' v' ⟨hes, h'⟩
    exact .pure ⟨.report hes, h'⟩
  case createTemplate payload org =>
    exact replied (createTemplate_both h payload org)
  case deleteTemplate id => exact replied (deleteTemplate_both h id)

/-- Both operations reply alike or fail alike. -/
inductive Alike : Except Error Reply → Except Error Reply → Prop
  | ok {r r' : Reply} : r.Alike r' → Alike (.ok r) (.ok r')
  | error {e e' : Error} : e.Alike e' → Alike (.error e) (.error e')

/-- What the operations come to in turn, each with the world that it leaves. -/
def trace {σ : Type} [Store σ] : List Operation → World σ →
    List (Except Error Reply × World σ)
  | [], _ => []
  | op :: rest, w => op.run w :: trace rest (op.run w).2

theorem trace_alike (ops : List Operation) (hops : ∀ op ∈ ops, op.Survives)
    (h : Related draws clock [] w v) :
    List.Forall₂ (fun x y => Alike x.1 y.1 ∧ Same x.2.store y.2.store ∧ x.2.supply = y.2.supply)
      (trace ops w) (trace ops v) := by
  induction ops generalizing w v with
  | nil => exact .nil
  | cons op rest ih =>
    obtain ⟨hop, hrest⟩ := List.forall_mem_cons.mp hops
    unfold trace
    cases op.run_both h hop with
    | ok hw hv h' =>
      rw [hw, hv]
      exact .cons ⟨.ok h'.1, h'.2.same, h'.2.supply⟩ (ih hrest h'.2)
    | error hw hv h' =>
      rw [hw, hv]
      exact .cons ⟨.error h'.1, h'.2.same, h'.2.supply⟩ (ih hrest h'.2)

/-- Whatever operations run from empty stores on one supply of draws, each replies or fails alike
on both stores and leaves the same records in both. -/
theorem lockstep (supply : Supply) (clock : Time.Instant) (hdraws : Genuine supply.draws clock)
    (ops : List Operation) (hops : ∀ op ∈ ops, op.Survives) :
    List.Forall₂ (fun x y => Alike x.1 y.1 ∧ Same x.2.store y.2.store ∧ x.2.supply = y.2.supply)
      (trace ops ⟨Memory.empty, supply⟩) (trace ops ⟨Relational.empty clock, supply⟩) :=
  trace_alike ops hops (.empty hdraws)

def countedDraws (n : Nat) : Draw :=
  ⟨.ofList (List.replicate (n + 1) 'i'), .ofList (List.replicate (n + 1) 's'), "token", ⟨0, 0⟩⟩

theorem genuine_countedDraws : Genuine countedDraws ⟨0, 0⟩ where
  id_inj m n h := by
    have hlength := congrArg List.length (String.ofList_injective h)
    simpa using hlength
  spare_inj m n h := by
    have hlength := congrArg List.length (String.ofList_injective h)
    simpa using hlength
  id_ne_spare m n h := by
    have hchars := String.ofList_injective h
    simp [List.replicate_succ] at hchars
  now _ := rfl

def isPort : Json.Value → Bool
  | .object [("port", .int n)] => n == 22
  | _ => false

theorem eq_of_isPort {v : Json.Value} (h : isPort v) : v = .object [("port", .int 22)] := by
  unfold isPort at h
  split at h
  · rw [eq_of_beq h]
  · exact absurd h Bool.false_ne_true

def firstOperations : List Operation := [
  .createPlatform ⟨"Linux", .host, .linux, .utf8, false, false, none,
    { Automation.off with ansibleConfig := some (.object [("port", .int 22)]) },
    [⟨"ssh", 22, true, true, true, .ofList [.password]⟩], [], ""⟩,
  .createAsset ⟨"web", "10.0.0.1", "i", none, true, "", none, [], ["/prod/web"],
    [[("username", .text "root")]]⟩ "org" .error,
  .createAccount [("asset", .text "ii"), ("username", .text "root")] .error]

theorem lockstep_firstOperations :
    (trace firstOperations ⟨Memory.empty, countedDraws, 0⟩).map (·.1.isOk) = [true, true, false] ∧
    List.Forall₂ (fun x y => Alike x.1 y.1 ∧ Same x.2.store y.2.store ∧ x.2.supply = y.2.supply)
      (trace firstOperations ⟨Memory.empty, countedDraws, 0⟩)
      (trace firstOperations ⟨Relational.empty ⟨0, 0⟩, countedDraws, 0⟩) := by
  refine ⟨by decide +kernel, lockstep ⟨countedDraws, 0⟩ ⟨0, 0⟩ genuine_countedDraws _ ?_⟩
  refine List.forall_mem_cons.mpr ⟨fun c hc => ?_, List.forall_mem_cons.mpr ⟨trivial, ?_⟩⟩
  · cases hc
    exact eq_of_isPort (by decide +kernel)
  · exact List.forall_mem_cons.mpr ⟨trivial, by simp⟩

end Service

end Custody
