import Custody.Proofs.Store.Rollback

/-!
Blocks inside blocks. A plan is a tree of writes and blocks; every block ends well or badly, and
whoever opened it may go on after either. All savepoints carry one name, and still a plan leaves
what it comes to where a failed block has never been.
-/
namespace Custody.Store

/-- What comes behind a call or a block depends on whether it went well. -/
inductive Plan where
  | finish
  | fail (e : Error)
  | call (c : Call) (next otherwise : Plan)
  | block (inner next otherwise : Plan)

namespace Plan

def run {σ : Type} [Store σ] : Plan → Run σ Unit
  | finish => pure ()
  | fail e => throw e
  | call c next otherwise => do
    match ← Run.caught (Run.write fun s => c.run s) with
    | .ok () => next.run
    | .error _ => otherwise.run
  | block inner next otherwise => do
    match ← Run.caught (Run.transaction inner.run) with
    | .ok () => next.run
    | .error _ => otherwise.run

/-- What the plan comes to without transactions: behind a failed block the contents are those from
before it. -/
def outcome {κ : Type} (write : Call → κ → Except Error Unit × κ) :
    Plan → κ → Except Error Unit × κ
  | finish, k => (.ok (), k)
  | fail e, k => (.error e, k)
  | call c next otherwise, k =>
    match write c k with
    | (.ok (), k') => next.outcome write k'
    | (.error _, k') => otherwise.outcome write k'
  | block inner next otherwise, k =>
    match inner.outcome write k with
    | (.ok (), k') => next.outcome write k'
    | (.error _, _) => otherwise.outcome write k

/-- The calls that the plan comes to, with the contents that each of them finds. -/
def reached {κ : Type} (write : Call → κ → Except Error Unit × κ) : Plan → κ → List (Call × κ)
  | finish, _ | fail _, _ => []
  | call c next otherwise, k => (c, k) ::
    match write c k with
    | (.ok (), k') => next.reached write k'
    | (.error _, k') => otherwise.reached write k'
  | block inner next otherwise, k => inner.reached write k ++
    match inner.outcome write k with
    | (.ok (), k') => next.reached write k'
    | (.error _, _) => otherwise.reached write k

end Plan

def Call.onTables : Call → Tables → Except Error Unit × Tables
  | insertPlatform p => guarded (Tables.together (Tables.platformStatements p))
  | insertAsset a => guarded (Tables.together (Tables.assetStatements a))
  | deleteAsset id => fun t => (.ok (), (t.deleteAsset id).2)
  | insertNode n => guarded (Tables.insertNode n)
  | insertTemplate u => guarded (Tables.insertTemplate u)
  | deleteTemplate id => fun t =>
    (.ok (), { t with templates := t.templates.filter (·.id != id) })
  | insertAccount a => guarded (Tables.insertAccount a)
  | updateAccount a => guarded (Tables.updateAccount a)
  | enqueue p now => fun t => (.ok (), t.insertPushTask p now)

def Call.onRecords : Call → Records → Except Error Unit × Records
  | insertPlatform p => guarded (Records.insertPlatform p)
  | insertAsset a => guarded (Records.insertAsset a)
  | deleteAsset id => fun r => (.ok (), (r.deleteAsset id).2)
  | insertNode n => guarded (Records.insertNode n)
  | insertTemplate t => guarded (Records.insertTemplate t)
  | deleteTemplate id => fun r => (.ok (), { r with templates := r.templates.erase id })
  | insertAccount a => guarded (Records.insertAccount a)
  | updateAccount a => guarded (Records.updateAccount a)
  | enqueue _ _ => fun r => (.ok (), r)

/-- A store that consists of its contents and a frame. A block may use the frame, as a stack is
used, and leaves it as it was. -/
structure Framed {σ κ : Type} [Store σ] (contents : σ → κ)
    (write : Call → κ → Except Error Unit × κ) (frame : σ → σ → Prop) : Prop where
  refl : ∀ s, frame s s
  trans : ∀ {s s' s''}, frame s s' → frame s' s'' → frame s s''
  call : ∀ c s, (c.run s).1 = (write c (contents s)).1 ∧
    contents (c.run s).2 = (write c (contents s)).2 ∧ frame s (c.run s).2
  enter : ∀ s, contents (Store.enter s) = contents s
  commit : ∀ {s s'}, frame (Store.enter s) s' →
    contents (Store.commit s') = contents s' ∧ frame s (Store.commit s')
  revert : ∀ {s s'}, frame (Store.enter s) s' →
    contents (Store.revert s s') = contents s ∧ frame s (Store.revert s s')

namespace Framed

variable {σ κ : Type} [Store σ] {contents : σ → κ} {write : Call → κ → Except Error Unit × κ}
  {frame : σ → σ → Prop} (L : Framed contents write frame)

include L

theorem transaction {body : Run σ Unit} {w : World σ} {r : Except Error Unit} {s' : σ}
    (hbody : body { w with store := Store.enter w.store } = (r, { w with store := s' }))
    (hframe : frame (Store.enter w.store) s') : ∃ s'',
      Run.transaction body w = (r, { w with store := s'' }) ∧ frame w.store s'' ∧
        contents s'' = if r.isOk then contents s' else contents w.store := by
  unfold Run.transaction
  rw [hbody]
  cases r with
  | ok u => exact ⟨_, rfl, (L.commit hframe).2, (L.commit hframe).1⟩
  | error e => exact ⟨_, rfl, (L.revert hframe).2, (L.revert hframe).1⟩

theorem run_eq (plan : Plan) (w : World σ) : ∃ s',
    plan.run w = ((plan.outcome write (contents w.store)).1, { w with store := s' }) ∧
      frame w.store s' ∧ contents s' = (plan.outcome write (contents w.store)).2 := by
  -- By induction on the plan: the store is in the same frame again, with the contents that the plan
  -- comes to.
  induction plan generalizing w with
  | finish => exact ⟨w.store, rfl, L.refl _, rfl⟩
  | fail e => exact ⟨w.store, rfl, L.refl _, rfl⟩
  | call c next otherwise ihNext ihOtherwise =>
    obtain ⟨hresult, hcontents, hframe⟩ := L.call c w.store
    have hcaught : Run.caught (Run.write fun s => c.run s) w =
        (.ok (c.run w.store).1, { w with store := (c.run w.store).2 }) := rfl
    simp only [Plan.run, Plan.outcome, Run.bind_of_ok hcaught]
    match hwrite : write c (contents w.store) with
    | (.ok (), k) =>
      rw [hwrite] at hresult hcontents
      rw [hresult]
      obtain ⟨s', hrun, hframe', hleft⟩ := ihNext { w with store := (c.run w.store).2 }
      rw [hcontents] at hrun hleft
      exact ⟨s', hrun, L.trans hframe hframe', hleft⟩
    | (.error e, k) =>
      rw [hwrite] at hresult hcontents
      rw [hresult]
      obtain ⟨s', hrun, hframe', hleft⟩ := ihOtherwise { w with store := (c.run w.store).2 }
      rw [hcontents] at hrun hleft
      exact ⟨s', hrun, L.trans hframe hframe', hleft⟩
  | block inner next otherwise ihInner ihNext ihOtherwise =>
    obtain ⟨s₁, hinner, hinside, hleft⟩ := ihInner { w with store := Store.enter w.store }
    obtain ⟨s₂, hblock, hframe, hcontents⟩ := L.transaction hinner hinside
    simp only [L.enter] at hblock hcontents hleft
    have hcaught : Run.caught (Run.transaction inner.run) w =
        (.ok (inner.outcome write (contents w.store)).1, { w with store := s₂ }) := by
      unfold Run.caught
      rw [hblock]
    simp only [Plan.run, Plan.outcome, Run.bind_of_ok hcaught]
    match houtcome : inner.outcome write (contents w.store) with
    | (.ok (), k) =>
      rw [houtcome] at hcontents hleft
      obtain ⟨s', hrun, hframe', hends⟩ := ihNext { w with store := s₂ }
      rw [hcontents, hleft] at hrun hends
      exact ⟨s', hrun, L.trans hframe hframe', hends⟩
    | (.error e, k) =>
      rw [houtcome] at hcontents
      obtain ⟨s', hrun, hframe', hends⟩ := ihOtherwise { w with store := s₂ }
      rw [hcontents] at hrun hends
      exact ⟨s', hrun, L.trans hframe hframe', hends⟩

end Framed

theorem Memory.guarded_onRecords (f : Records → Except Error Records) (m : Memory) :
    (guarded f m).1 = (Store.guarded f m.records).1 ∧
      (guarded f m).2.records = (Store.guarded f m.records).2 := by
  cases h : f m.records with
  | ok r => simp [guarded_of_ok h, Store.guarded, h]
  | error e => simp [guarded_of_error h, Store.guarded, h]

theorem Memory.framed : Framed Memory.records Call.onRecords fun _ _ => True where
  refl _ := trivial
  trans _ _ := trivial
  call c m := by
    -- Pushes stand outside of the records, so they may stay queued.
    suffices (c.run m).1 = (c.onRecords m.records).1 ∧
        (c.run m).2.records = (c.onRecords m.records).2 from ⟨this.1, this.2, trivial⟩
    cases c with
    | insertPlatform p => exact guarded_onRecords _ m
    | insertAsset a => exact guarded_onRecords _ m
    | deleteAsset id => exact ⟨rfl, rfl⟩
    | insertNode n => exact guarded_onRecords _ m
    | insertTemplate t => exact guarded_onRecords _ m
    | deleteTemplate id => exact ⟨rfl, rfl⟩
    | insertAccount a => exact guarded_onRecords _ m
    | updateAccount a => exact guarded_onRecords _ m
    | enqueue p now => exact ⟨rfl, rfl⟩
  enter _ := rfl
  commit _ := ⟨rfl, trivial⟩
  revert _ := ⟨rfl, trivial⟩

theorem Relational.guarded_onTables (f : Tables.Statement) (s : Relational) :
    guarded f s = ((Store.guarded f s.tables).1,
      { s with tables := (Store.guarded f s.tables).2 }) := by
  cases h : f s.tables with
  | ok t => simp [guarded_of_ok h, Store.guarded, h]
  | error e => simp [guarded_of_error h, Store.guarded, h]

theorem Relational.call_onTables (c : Call) (s : Relational) :
    c.run s = ((c.onTables s.tables).1, { s with tables := (c.onTables s.tables).2 }) := by
  -- A savepoint of its own makes one statement of an insert of many, wherever that fails.
  cases c with
  | insertPlatform p => exact (performAll_eq _ s).trans (guarded_onTables _ s)
  | insertAsset a => exact (performAll_eq _ s).trans (guarded_onTables _ s)
  | deleteAsset id => rfl
  | insertNode n => exact guarded_onTables _ s
  | insertTemplate u => exact guarded_onTables _ s
  | deleteTemplate id => rfl
  | insertAccount a => exact guarded_onTables _ s
  | updateAccount a => exact guarded_onTables _ s
  | enqueue p now => rfl

theorem Relational.framed : Framed Relational.tables Call.onTables
    fun s s' => ∃ t, s' = { s with tables := t } where
  refl s := ⟨s.tables, rfl⟩
  trans := by
    rintro s _ _ ⟨t, rfl⟩ ⟨u, rfl⟩
    exact ⟨u, rfl⟩
  call c s := by
    rw [call_onTables]
    exact ⟨rfl, rfl, _, rfl⟩
  enter _ := rfl
  -- A block opens and closes one savepoint, the innermost, whatever its name is used for outside.
  commit := by
    rintro s _ ⟨t, rfl⟩
    exact ⟨rfl, t, commit_enter s t⟩
  revert := by
    rintro s _ ⟨t, rfl⟩
    exact ⟨congrArg Relational.tables (revert_enter s t), s.tables, revert_enter s t⟩

/-- A block of this plan leaves either all that its plan has left at its end, or what it found. -/
structure AllOrNothing {σ κ : Type} [Store σ] (contents : σ → κ) (plan : Plan) (w : World σ) :
    Prop where
  committed : ∀ w', Run.transaction plan.run w = (.ok (), w') → ∃ inside,
    plan.run { w with store := Store.enter w.store } = (.ok (), inside) ∧
      contents w'.store = contents inside.store
  reverted : ∀ e w', Run.transaction plan.run w = (.error e, w') →
    contents w'.store = contents w.store

theorem Framed.allOrNothing {σ κ : Type} [Store σ] {contents : σ → κ}
    {write : Call → κ → Except Error Unit × κ} {frame : σ → σ → Prop}
    (L : Framed contents write frame) (plan : Plan) (w : World σ) :
    AllOrNothing contents plan w ∧ frame w.store (Run.transaction plan.run w).2.store := by
  obtain ⟨s₁, hinner, hinside, -⟩ := L.run_eq plan { w with store := Store.enter w.store }
  obtain ⟨s₂, hblock, hframe, hcontents⟩ := L.transaction hinner hinside
  constructor
  · constructor
    · intro w' h
      obtain ⟨hok, rfl⟩ := Prod.mk.inj (hblock.symm.trans h)
      rw [hok] at hinner hcontents
      exact ⟨_, hinner, hcontents⟩
    · intro e w' h
      obtain ⟨herror, rfl⟩ := Prod.mk.inj (hblock.symm.trans h)
      rw [herror] at hcontents
      exact hcontents
  · rw [hblock]
    exact hframe

section Alike

variable {κ κ' : Type} {write : Call → κ → Except Error Unit × κ}
  {write' : Call → κ' → Except Error Unit × κ'} {alike : κ → κ' → Prop}

def Call.Alike (write : Call → κ → Except Error Unit × κ)
    (write' : Call → κ' → Except Error Unit × κ') (alike : κ → κ' → Prop) (c : Call) (k : κ)
    (k' : κ') : Prop :=
  (write c k).1.isOk = (write' c k').1.isOk ∧ alike (write c k).2 (write' c k').2

/-- Contents on which every call that the plan comes to is answered alike are alike behind it. -/
theorem Plan.outcome_alike (plan : Plan) {k : κ} {k' : κ'}
    (hcalls : ∀ c l l', (c, l) ∈ plan.reached write k → (c, l') ∈ plan.reached write' k' →
      alike l l' → c.Alike write write' alike l l')
    (h : alike k k') :
    (plan.outcome write k).1.isOk = (plan.outcome write' k').1.isOk ∧
      alike (plan.outcome write k).2 (plan.outcome write' k').2 := by
  induction plan generalizing k k' with
  | finish => exact ⟨rfl, h⟩
  | fail e => exact ⟨rfl, h⟩
  | call c next otherwise ihNext ihOtherwise =>
    unfold Plan.reached at hcalls
    obtain ⟨hresult, hleft⟩ := hcalls c k k' List.mem_cons_self List.mem_cons_self h
    unfold Plan.outcome
    match hw : write c k, hw' : write' c k' with
    | (.ok (), _), (.ok (), _) =>
      rw [hw, hw'] at hleft hcalls
      exact ihNext (fun d l l' hd hd' =>
        hcalls d l l' (List.mem_cons_of_mem _ hd) (List.mem_cons_of_mem _ hd')) hleft
    | (.error _, _), (.error _, _) =>
      rw [hw, hw'] at hleft hcalls
      exact ihOtherwise (fun d l l' hd hd' =>
        hcalls d l l' (List.mem_cons_of_mem _ hd) (List.mem_cons_of_mem _ hd')) hleft
    | (.ok (), _), (.error _, _) => rw [hw, hw'] at hresult; cases hresult
    | (.error _, _), (.ok (), _) => rw [hw, hw'] at hresult; cases hresult
  | block inner next otherwise ihInner ihNext ihOtherwise =>
    unfold Plan.reached at hcalls
    obtain ⟨hresult, hleft⟩ := ihInner (fun d l l' hd hd' =>
      hcalls d l l' (List.mem_append_left _ hd) (List.mem_append_left _ hd')) h
    unfold Plan.outcome
    match hw : inner.outcome write k, hw' : inner.outcome write' k' with
    | (.ok (), _), (.ok (), _) =>
      rw [hw, hw'] at hleft hcalls
      exact ihNext (fun d l l' hd hd' =>
        hcalls d l l' (List.mem_append_right _ hd) (List.mem_append_right _ hd')) hleft
    | (.error _, _), (.error _, _) =>
      rw [hw, hw'] at hcalls
      exact ihOtherwise (fun d l l' hd hd' =>
        hcalls d l l' (List.mem_append_right _ hd) (List.mem_append_right _ hd')) h
    | (.ok (), _), (.error _, _) => rw [hw, hw'] at hresult; cases hresult
    | (.error _, _), (.ok (), _) => rw [hw, hw'] at hresult; cases hresult

end Alike

/-- Whatever blocks are open already, a block leaves all or nothing of what its plan writes, and the
savepoints that there were. So a plan leaves what it comes to without any transactions, on the
tables with the outbox among them and in memory alike; and where both answer the calls that it comes
to alike, both hold the same behind it. -/
theorem blocks_all_or_nothing (plan : Plan) :
    (∀ w : World Relational,
      AllOrNothing Relational.tables plan w ∧
      (Run.transaction plan.run w).2.store.savepoints = w.store.savepoints ∧
      (plan.run w).1 = (plan.outcome Call.onTables w.store.tables).1 ∧
      (plan.run w).2.store =
        { w.store with tables := (plan.outcome Call.onTables w.store.tables).2 }) ∧
    (∀ v : World Memory,
      AllOrNothing Memory.records plan v ∧
      (plan.run v).1 = (plan.outcome Call.onRecords v.store.records).1 ∧
      (plan.run v).2.store.records = (plan.outcome Call.onRecords v.store.records).2) ∧
    ∀ (alike : Tables → Records → Prop) (w : World Relational) (v : World Memory),
      (∀ c t r, (c, t) ∈ plan.reached Call.onTables w.store.tables →
        (c, r) ∈ plan.reached Call.onRecords v.store.records → alike t r →
        c.Alike Call.onTables Call.onRecords alike t r) →
      alike w.store.tables v.store.records →
        (plan.run w).1.isOk = (plan.run v).1.isOk ∧
          alike (plan.run w).2.store.tables (plan.run v).2.store.records := by
  refine ⟨fun w => ?_, fun v => ?_, fun alike w v hcalls h => ?_⟩
  · obtain ⟨hblock, t, hframe⟩ := Relational.framed.allOrNothing plan w
    obtain ⟨s', hrun, ⟨u, rfl⟩, hleft⟩ := Relational.framed.run_eq plan w
    rw [hrun, hframe, ← hleft]
    exact ⟨hblock, rfl, rfl, rfl⟩
  · obtain ⟨m', hrun, -, hleft⟩ := Memory.framed.run_eq plan v
    rw [hrun]
    exact ⟨(Memory.framed.allOrNothing plan v).1, rfl, hleft⟩
  · obtain ⟨s', hrun, -, hleft⟩ := Relational.framed.run_eq plan w
    obtain ⟨m', hrun', -, hleft'⟩ := Memory.framed.run_eq plan v
    rw [hrun, hrun', hleft, hleft']
    exact plan.outcome_alike hcalls h

def idle : Supply := ⟨fun _ => ⟨"", "", "", ⟨0, 0⟩⟩, 0⟩

def rootNode : Node := ⟨"n1", "/Default", none⟩

def childNode : Node := ⟨"n2", "/Default/web", some "n1"⟩

/-- The innermost block stores a child before it fails; the one around it goes on with a push. -/
def nestedPlan : Plan :=
  .block
    (.call (.insertNode rootNode)
      (.block
        (.call (.insertNode childNode)
          (.call (.insertNode rootNode) .finish (.fail (.duplicate "nodes.full_value"))) .finish)
        .finish
        (.call (.enqueue ⟨["a1"], none⟩ ⟨0, 0⟩) .finish .finish))
      .finish)
    .finish .finish

theorem blocks_all_or_nothing_nested :
    (∀ c t r, (c, t) ∈ nestedPlan.reached Call.onTables Tables.empty →
      (c, r) ∈ nestedPlan.reached Call.onRecords Records.empty → t.nodes = r.nodes.values →
      c.Alike Call.onTables Call.onRecords (fun t r => t.nodes = r.nodes.values) t r) ∧
    (nestedPlan.run ⟨Relational.empty ⟨0, 0⟩, idle⟩).2.store.tables.nodes = [rootNode] ∧
    (nestedPlan.run ⟨Relational.empty ⟨0, 0⟩, idle⟩).2.store.tables.pushTasks.length = 1 ∧
    (nestedPlan.run ⟨Relational.empty ⟨0, 0⟩, idle⟩).2.store.savepoints = [] ∧
    (nestedPlan.run ⟨Memory.empty, idle⟩).2.store.records.nodes.values = [rootNode] := by
  have hreached : nestedPlan.reached Call.onTables Tables.empty = [
      (.insertNode rootNode, Tables.empty),
      (.insertNode childNode, { Tables.empty with nodes := [rootNode] }),
      (.insertNode rootNode, { Tables.empty with nodes := [rootNode, childNode] }),
      (.enqueue ⟨["a1"], none⟩ ⟨0, 0⟩, { Tables.empty with nodes := [rootNode] })] := rfl
  have hreached' : nestedPlan.reached Call.onRecords Records.empty = [
      (.insertNode rootNode, Records.empty),
      (.insertNode childNode, { Records.empty with nodes := [("n1", rootNode)] }),
      (.insertNode rootNode,
        { Records.empty with nodes := [("n1", rootNode), ("n2", childNode)] }),
      (.enqueue ⟨["a1"], none⟩ ⟨0, 0⟩, { Records.empty with nodes := [("n1", rootNode)] })] := rfl
  have hne : Call.insertNode rootNode ≠ .insertNode childNode := by simp [rootNode, childNode]
  have hcalls : ∀ c t r, (c, t) ∈ nestedPlan.reached Call.onTables Tables.empty →
      (c, r) ∈ nestedPlan.reached Call.onRecords Records.empty → t.nodes = r.nodes.values →
      c.Alike Call.onTables Call.onRecords (fun t r => t.nodes = r.nodes.values) t r := by
    intro c t r ht hr h
    rw [hreached] at ht
    rw [hreached'] at hr
    simp only [List.mem_cons, List.not_mem_nil, or_false, Prod.mk.injEq] at ht hr
    -- Of the pairs of calls, only those at the same place of the plan find the same nodes.
    rcases ht with ⟨rfl, rfl⟩ | ⟨rfl, rfl⟩ | ⟨rfl, rfl⟩ | ⟨rfl, rfl⟩ <;>
      rcases hr with ⟨hc, rfl⟩ | ⟨hc, rfl⟩ | ⟨hc, rfl⟩ | ⟨hc, rfl⟩ <;>
      first
        | exact ⟨rfl, rfl⟩
        | exact absurd hc hne
        | exact absurd hc hne.symm
        | exact absurd h (by decide)
  obtain ⟨htables, -, hboth⟩ := blocks_all_or_nothing nestedPlan
  obtain ⟨-, -, -, hleft⟩ := htables ⟨Relational.empty ⟨0, 0⟩, idle⟩
  have hsame := (hboth _ ⟨Relational.empty ⟨0, 0⟩, idle⟩ ⟨Memory.empty, idle⟩ hcalls rfl).2
  rw [← hsame, hleft]
  exact ⟨hcalls, rfl, rfl, rfl, rfl⟩

/-- In memory a node may name a parent that is not there; a table refuses it. -/
theorem orphan_node_apart :
    ((Plan.block (.call (.insertNode childNode) .finish .finish) .finish .finish).run
        ⟨Relational.empty ⟨0, 0⟩, idle⟩).2.store.tables.nodes = [] ∧
      ((Plan.block (.call (.insertNode childNode) .finish .finish) .finish .finish).run
        ⟨Memory.empty, idle⟩).2.store.records.nodes.values = [childNode] :=
  ⟨rfl, rfl⟩

end Custody.Store
