import Custody.Proofs.Asset.Forest
import Custody.Proofs.Service.Lockstep
import Custody.Proofs.Store.Nodes

/-!
The nodes over whole runs, of operations and of single nodes that callers ask for. They are a
forest at all times; asking for a path comes to the one node there, whatever the path looks like,
and asking again changes nothing.
-/
namespace Custody

open Run Store

namespace Node

section Planted

variable {σ : Type} {good : σ → Prop} {nodes : σ → List Node} {draws : Nat → Draw} {w w' : World σ}

/-- The nodes are a forest, and each has the id of a draw that was made. -/
structure Planted (good : σ → Prop) (nodes : σ → List Node) (draws : Nat → Draw) (w : World σ) :
    Prop where
  good : good w.store
  forest : Forest (nodes w.store)
  source : w.supply.draws = draws
  spent : ∀ n ∈ nodes w.store, ∃ i < w.supply.used, n.id = (draws i).id

theorem Planted.same (h : Planted good nodes draws w)
    (hs : good w'.store ∧ nodes w'.store = nodes w.store)
    (hdraws : w'.supply.draws = w.supply.draws) (hused : w.supply.used ≤ w'.supply.used) :
    Planted good nodes draws w' where
  good := hs.1
  forest := hs.2 ▸ h.forest
  source := hdraws.trans h.source
  spent n hn := by
    obtain ⟨i, hi, hid⟩ := h.spent n (hs.2 ▸ hn)
    exact ⟨i, Nat.lt_of_lt_of_le hi hused, hid⟩

theorem Planted.insert (h : Planted good nodes draws w) {s' : σ} {n : Node} (hgood : good s')
    (hperm : (nodes s').Perm (n :: nodes w.store)) (hid : n.id = (draws w.supply.used).id)
    (hfree : ∀ m ∈ nodes w.store, m.fullValue ≠ n.fullValue)
    (hfits : Fits (nodes w.store) n.fullValue n.parentId) :
    Planted good nodes draws
      ⟨s', { w.supply with used := w.supply.used + 1 }⟩ where
  good := hgood
  forest := h.forest.insert hperm hfree hfits
  source := h.source
  spent m hm := by
    rcases List.mem_cons.mp (hperm.mem_iff.mp hm) with rfl | hm
    · exact ⟨_, Nat.lt_succ_self _, hid⟩
    · obtain ⟨i, hi, hid⟩ := h.spent m hm
      exact ⟨i, Nat.lt_succ_of_lt hi, hid⟩

/-- The node is stored at this path. All nodes that were there still are, and others have come at
the path and its ancestors only. -/
structure Obtained (nodes : σ → List Node) (path : List Char) (w : World σ) (n : Node)
    (w' : World σ) : Prop where
  found : n.fullValue = .ofList path
  mem : n ∈ nodes w'.store
  kept : ∀ m ∈ nodes w.store, m ∈ nodes w'.store
  added : ∀ m ∈ nodes w'.store,
    m ∈ nodes w.store ∨ m.fullValue.toList ∈ path :: ancestors path

theorem Obtained.refl {path : List Char} {n : Node} (hmem : n ∈ nodes w.store)
    (hpath : n.fullValue = .ofList path) : Obtained nodes path w n w :=
  ⟨hpath, hmem, fun _ hm => hm, fun _ hm => .inl hm⟩

theorem Obtained.below {path parent : List Char} {m n : Node} {w'' : World σ}
    (hparent : parentChars path = some parent) (h : Obtained nodes parent w m w')
    (h' : Obtained nodes path w' n w'') : Obtained nodes path w n w'' where
  found := h'.found
  mem := h'.mem
  kept k hk := h'.kept k (h.kept k hk)
  added k hk := by
    -- First the parent, then the node itself.
    rcases h'.added k hk with hk | hon
    · refine (h.added k hk).imp_right fun hon => ?_
      rw [ancestors_of_some hparent]
      exact .tail path hon
    · exact .inr hon

end Planted

variable {σ : Type} [Store σ] {good : σ → Prop} {nodes : σ → List Node} {draws : Nat → Draw}
  {w : World σ}

theorem make_planted (G : Grove good nodes) (hids : ∀ i j, (draws i).id = (draws j).id → i = j)
    (h : Planted good nodes draws w) {path : List Char} {parentId : Option String}
    (hfree : Store.node? w.store (.ofList path) = none)
    (hfits : Fits (nodes w.store) (.ofList path) parentId) :
    Ends (make (.ofList path) parentId) w
      (fun n w' => Planted good nodes draws w' ∧ Obtained nodes path w n w') fun _ _ => False := by
  let n : Node := ⟨(w.supply.draws w.supply.used).id, .ofList path, parentId⟩
  have hid : n.id = (draws w.supply.used).id := congrArg (fun f => (f w.supply.used).id) h.source
  have hnew (m : Node) (hm : m ∈ nodes w.store) : m.fullValue ≠ n.fullValue ∧ m.id ≠ n.id := by
    constructor
    · intro heq
      rw [(G.node? h.good).mpr ⟨hm, heq⟩] at hfree
      cases hfree
    · intro heq
      obtain ⟨i, hi, hspent⟩ := h.spent m hm
      exact absurd (hids _ _ (hspent.symm.trans (heq.trans hid))) (Nat.ne_of_lt hi)
  obtain ⟨s', hins, hgood, hperm⟩ := G.insert h.good hnew fun p hp => hfits.exists_mem hp
  refine .bind (.draw (.bind (.write (fun _ s hs => .pure ?_) fun e s hs => ?_)))
  · obtain rfl : s' = s := congrArg Prod.snd (hins.symm.trans hs)
    refine ⟨h.insert hgood hperm hid (fun m hm => (hnew m hm).1) hfits, rfl,
      hperm.mem_iff.mpr (.head _), fun m hm => hperm.mem_iff.mpr (.tail n hm), fun m hm => ?_⟩
    rcases List.mem_cons.mp (hperm.mem_iff.mp hm) with rfl | hm
    · exact .inr (String.toList_ofList ▸ .head _)
    · exact .inl hm
  · cases hins.symm.trans hs

theorem ensureBelow_of_found {above : List (List Char)} {path : List Char} {n : Node}
    (h : Store.node? w.store (.ofList path) = some n) :
    (ensureBelow above path : Run σ Node) w = (.ok n, w) := by
  unfold ensureBelow
  cases above <;> simp only [Run.ask_bind, h] <;> rfl

theorem ensureBelow_planted (G : Grove good nodes)
    (hids : ∀ i j, (draws i).id = (draws j).id → i = j) {above : List (List Char)}
    {path : List Char} (habove : ancestors path = above) (h : Planted good nodes draws w) :
    Ends (ensureBelow above path) w
      (fun n w' => Planted good nodes draws w' ∧ Obtained nodes path w n w')
      fun _ _ => False := by
  -- By induction along the ancestors. While these come into being the path itself stays free, since
  -- it is longer than any of them.
  have there {above : List (List Char)} {path : List Char} {w : World σ} {n : Node}
      (h : Planted good nodes draws w) (hfound : Store.node? w.store (.ofList path) = some n) :
      Ends (ensureBelow above path) w
        (fun n w' => Planted good nodes draws w' ∧ Obtained nodes path w n w')
        fun _ _ => False := by
    obtain ⟨hmem, hpath⟩ := (G.node? h.good).mp hfound
    exact .ok (ensureBelow_of_found hfound) ⟨h, .refl hmem hpath⟩
  induction above generalizing path w with
  | nil =>
    cases hfound : Store.node? w.store (.ofList path) with
    | some n => exact there h hfound
    | none =>
      have hroot := parentChars_of_ancestors_nil habove
      unfold ensureBelow
      refine .bind (.ask ?_)
      rw [hfound]
      exact .bind (.pure (make_planted G hids h hfound (fits_none (by rwa [String.toList_ofList]))))
  | cons parent rest ih =>
    cases hfound : Store.node? w.store (.ofList path) with
    | some n => exact there h hfound
    | none =>
      obtain ⟨hparent, hrest⟩ := parentChars_of_ancestors_cons habove
      unfold ensureBelow
      refine .bind (.ask ?_)
      rw [hfound]
      dsimp only
      rw [map_eq_pure_bind]
      refine .bind (.bind ((ih hrest h).mono (fun m w' hm => .pure ?_) fun _ _ h => h))
      obtain ⟨h', hobtained⟩ := hm
      have hfree : Store.node? w'.store (.ofList path) = none := by
        refine Option.eq_none_iff_forall_ne_some.mpr fun n hn => ?_
        obtain ⟨hmem, hpath⟩ := (G.node? h'.good).mp hn
        rcases hobtained.added n hmem with hold | hon
        · rw [(G.node? h.good).mpr ⟨hold, hpath⟩] at hfound
          cases hfound
        · rw [hpath, String.toList_ofList, ← ancestors_of_some hparent] at hon
          exact Nat.lt_irrefl _ (length_lt_of_mem_ancestors hon)
      have hfits : Fits (nodes w'.store) (.ofList path) (some m.id) := by
        refine fits_some hobtained.mem ?_
        rw [String.toList_ofList, hobtained.found, String.toList_ofList, hparent]
      exact (make_planted G hids h' hfree hfits).mono
        (fun n w'' hn => ⟨hn.1, hobtained.below hparent hn.2⟩) fun _ _ h => h

theorem ensure_planted (G : Grove good nodes) (hids : ∀ i j, (draws i).id = (draws j).id → i = j)
    (path : String) (h : Planted good nodes draws w) :
    ∃ n w', (ensure path : Run σ Node) w = (.ok n, w') ∧ Planted good nodes draws w' ∧
      Obtained nodes path.toList w n w' ∧ Store.node? w'.store path = some n ∧
      (ensure path : Run σ Node) w' = (.ok n, w') := by
  obtain ⟨n, w', hrun, h', hobtained⟩ :=
    (ensureBelow_planted G hids (Eq.refl (ancestors path.toList)) h).exists_value
  have hfound := (G.node? h'.good).mpr ⟨hobtained.mem, hobtained.found⟩
  exact ⟨n, w', hrun, h', hobtained, by rwa [String.ofList_toList] at hfound,
    ensureBelow_of_found hfound⟩

theorem Planted.enclosing (G : Grove good nodes) (draws : Nat → Draw) :
    Enclosing (fun c => ¬ c.Plants) fun w w' : World σ =>
      Planted good nodes draws w → Planted good nodes draws w' where
  refl _ h := h
  trans h h' hw := h' (h hw)
  draw w h := h.same ⟨h.good, rfl⟩ rfl (Nat.le_succ _)
  call c w hc h := h.same (G.aside hc h.good) rfl (Nat.le_refl _)
  transaction f hclosed hf w h := by
    have hdraws := closed_draws.transaction f (hclosed _ closed_draws) w
    have hused := closed_used.transaction f (hclosed _ closed_used) w
    have henter := G.enter h.good
    have hin := hf { w with store := Store.enter w.store } (h.same henter rfl (Nat.le_refl _))
    match hrun : Run.transaction f w with
    | (.error e, w') =>
      rw [hrun] at hdraws hused
      exact h.same (G.reverting.transaction f hclosed w w' e hrun h.good) hdraws hused
    | (.ok a, w') =>
      unfold Run.transaction at hrun
      split at hrun
      · next heq =>
        rw [heq] at hin
        cases hrun
        exact hin.same (G.commit hin.good) rfl (Nat.le_refl _)
      · cases hrun

end Node

namespace Service

open Node

/-- What callers do: run an operation, or ask for the node at a path. -/
inductive Act where
  | operation (op : Operation)
  | ensureNode (path : String)

section Acts

variable {σ : Type} [Store σ] {good : σ → Prop} {nodes : σ → List Node} {draws : Nat → Draw}
  {w : World σ}

def Act.behind : Act → World σ → World σ
  | operation op, w => (op.run w).2
  | ensureNode path, w => ((Node.ensure path : Run σ Node) w).2

def behindAll (acts : List Act) (w : World σ) : World σ := acts.foldl (fun w act => act.behind w) w

theorem Act.behind_planted (G : Grove good nodes)
    (hids : ∀ i j, (draws i).id = (draws j).id → i = j) (act : Act)
    (h : Planted good nodes draws w) : Planted good nodes draws (act.behind w) := by
  have hensure (path : String) : Within
      (fun w w' : World σ => Planted good nodes draws w → Planted good nodes draws w')
      (Node.ensure path) := by
    intro w h
    obtain ⟨n, w', hrun, h', -⟩ := ensure_planted G hids path h
    rwa [hrun]
  cases act with
  | operation op =>
    exact op.run_enclosing (Planted.enclosing G draws) hensure (fun _ hc => hc) w h
  | ensureNode path => exact hensure path w h

theorem behindAll_planted (G : Grove good nodes)
    (hids : ∀ i j, (draws i).id = (draws j).id → i = j) (acts : List Act)
    (h : Planted good nodes draws w) : Planted good nodes draws (behindAll acts w) := by
  induction acts generalizing w with
  | nil => exact h
  | cons act rest ih => exact ih (act.behind_planted G hids h)

/-- The nodes are a forest. Whatever path is asked for next, there comes a node at exactly this
path, others only at its ancestors, and asking again gives the same node and changes nothing. -/
structure Tended (nodes : σ → List Node) (w : World σ) : Prop where
  forest : Forest (nodes w.store)
  ensure : ∀ path : String, ∃ n w', (Node.ensure path : Run σ Node) w = (.ok n, w') ∧
    n.fullValue = path ∧ Store.node? w'.store path = some n ∧
    (∀ m ∈ nodes w.store, m ∈ nodes w'.store) ∧
    (∀ m ∈ nodes w'.store, m ∈ nodes w.store ∨
      m.fullValue.toList ∈ path.toList :: ancestors path.toList) ∧
    (Node.ensure path : Run σ Node) w' = (.ok n, w')

theorem tended_of_planted (G : Grove good nodes) (hids : ∀ i j, (draws i).id = (draws j).id → i = j)
    (h : Planted good nodes draws w) : Tended nodes w where
  forest := h.forest
  ensure path := by
    obtain ⟨n, w', hrun, -, hobtained, hfound, hagain⟩ := ensure_planted G hids path h
    exact ⟨n, w', hrun, hobtained.found.trans String.ofList_toList, hfound, hobtained.kept,
      hobtained.added, hagain⟩

end Acts

/-- Whatever was done before, on either store: given that ids are never drawn twice, the nodes are a
forest and every path is made its node. -/
theorem nodes_tended (supply : Supply) (clock : Time.Instant)
    (hids : ∀ i j, (supply.draws i).id = (supply.draws j).id → i = j) (acts : List Act) :
    Tended Memory.nodes (behindAll acts ⟨Memory.empty, supply⟩) ∧
      Tended Relational.nodes (behindAll acts ⟨Relational.empty clock, supply⟩) := by
  have hm : Planted (fun m : Memory => m.records.Filed ∧ m.records.Unique) Memory.nodes
      supply.draws ⟨Memory.empty, supply⟩ :=
    ⟨⟨.empty, by constructor <;> exact .nil⟩, .nil, rfl, fun _ hn => absurd hn List.not_mem_nil⟩
  have hs : Planted (fun s : Relational => s.tables.Valid) Relational.nodes supply.draws
      ⟨Relational.empty clock, supply⟩ :=
    ⟨.empty, .nil, rfl, fun _ hn => absurd hn List.not_mem_nil⟩
  exact ⟨tended_of_planted Memory.grove hids (behindAll_planted Memory.grove hids acts hm),
    tended_of_planted Relational.grove hids (behindAll_planted Relational.grove hids acts hs)⟩

def plantings : List Act :=
  let asset (nodes : List String) (accounts : List Json.Object) : Act :=
    .operation (.createAsset ⟨"web", "10.0.0.1", "i", none, true, "", none, [], nodes, accounts⟩
      "org" .error)
  [.operation (firstOperations[0]), asset ["/prod/web", "/prod/db"] [],
    asset ["/test/web"] [[("username", .text "")]], .ensureNode "a//b/", .ensureNode "",
    .ensureNode "/"]

theorem nodes_tended_plantings :
    let w : World Memory := behindAll plantings ⟨Memory.empty, countedDraws, 0⟩
    let v : World Relational := behindAll plantings ⟨Relational.empty ⟨0, 0⟩, countedDraws, 0⟩
    let planted := [("/prod", none), ("/prod/web", some 3), ("/prod/db", some 3), ("a", none),
      ("a/", some 9), ("a//b", some 10), ("a//b/", some 11), ("", none), ("/", none)]
    let listed (nodes : List Node) := nodes.map fun n => (n.fullValue, n.parentId.map String.length)
    listed w.store.nodes = planted ∧ Tended Memory.nodes w ∧
      listed v.store.nodes = planted ∧ Tended Relational.nodes v := by
  intro w v
  have h := nodes_tended ⟨countedDraws, 0⟩ ⟨0, 0⟩ genuine_countedDraws.id_inj plantings
  exact ⟨by decide +kernel, h.1, by decide +kernel, h.2⟩

end Service

end Custody
