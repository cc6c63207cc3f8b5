import Custody.Proofs.Asset.Settled
import Custody.Proofs.Store.Blocks
import Custody.Proofs.Store.Queue
import Custody.Proofs.Store.Reading

/-!
An asset that both kinds of store take, as either gives it back. Memory keeps the record and puts
its lists in order; the tables spread it over rows and put it together again, and have no columns
for what a protocol says beyond its name, port and primary mark.
-/
namespace Custody

/-- The second asset is the first with its protocols by name, and with its labels and node ids in
order and once each. -/
structure Asset.Arranges (a b : Asset) : Prop where
  others : b = { a with protocols := b.protocols, labels := b.labels, nodeIds := b.nodeIds }
  protocols : b.protocols.Perm a.protocols
  protocolOrder : b.protocols.Pairwise fun p q => p.name < q.name
  labels : ∀ l, l ∈ b.labels ↔ l ∈ a.labels
  labelOrder : b.labels.Pairwise fun l m => l.name < m.name ∨ l.name = m.name ∧ l.value < m.value
  nodeIds : ∀ n, n ∈ b.nodeIds ↔ n ∈ a.nodeIds
  nodeIdOrder : b.nodeIds.Pairwise (· < ·)

namespace Asset

theorem pairwise_sortLabels (ls : List Label) : (sortLabels ls).Pairwise fun l m =>
    l.name < m.name ∨ l.name = m.name ∧ l.value < m.value := by
  refine (linear_label.pairwise_dropRepeats ls).imp fun {l m} ⟨hle, hne⟩ => ?_
  rcases (Label.le_iff l m).mp hle with hlt | ⟨hname, hvalue⟩
  · exact .inl hlt
  · refine .inr ⟨hname, Std.lt_of_le_of_ne hvalue fun heq => hne ?_⟩
    cases l
    cases m
    exact congrArg₂ Label.mk hname heq

theorem pairwise_sortNodeIds (ids : List String) : (sortNodeIds ids).Pairwise (· < ·) :=
  (linear_text.pairwise_dropRepeats ids).imp fun ⟨hle, hne⟩ =>
    Std.lt_of_le_of_ne (of_decide_eq_true hle) hne

theorem arranges_arranged {a : Asset} (h : (a.protocols.map (·.name)).Nodup) :
    a.Arranges a.arranged where
  others := rfl
  protocols := sortProtocols_perm a.protocols
  protocolOrder := by
    have hnames : ((sortProtocols a.protocols).map (·.name)).Nodup :=
      ((sortProtocols_perm a.protocols).map _).nodup_iff.mpr h
    exact ((pairwise_sortProtocols a.protocols).and (List.pairwise_map.mp hnames)).imp
      fun ⟨hle, hne⟩ => Std.lt_of_le_of_ne hle hne
  labels _ := mem_dropRepeats.trans List.mem_mergeSort
  labelOrder := pairwise_sortLabels a.labels
  nodeIds _ := mem_dropRepeats.trans List.mem_mergeSort
  nodeIdOrder := pairwise_sortNodeIds a.nodeIds

theorem sortProtocols_map_bare (ps : List Protocol) :
    sortProtocols (ps.map Protocol.bare) = (sortProtocols ps).map Protocol.bare := by
  refine (List.map_mergeSort ?_).symm
  intro p _ q _
  rfl

end Asset

namespace Store

namespace Relational

variable {s s' : Relational} {a : Asset}

theorem exists_of_insertAsset (h : Store.insertAsset a s = (.ok (), s')) :
    ∃ t, Tables.together (Tables.assetStatements a) s.tables = .ok t ∧
      s' = { s with tables := t } := by
  change performAll (Tables.assetStatements a) s = _ at h
  rw [performAll_eq] at h
  exact eq_ok_of_guarded h

theorem insertAsset_stored (hs : s.tables.Valid) (h : Store.insertAsset a s = (.ok (), s')) :
    Store.asset? s' a.id = some { a.arranged with
      protocols := a.arranged.protocols.map Protocol.bare
      dateCreated := Tables.readDate s.clock a.dateCreated } := by
  obtain ⟨t, ht, rfl⟩ := exists_of_insertAsset h
  have hid := (Tables.fits_of_together hs ht).newId
  obtain ⟨_, _, _, heq, -, -⟩ := Tables.eq_of_together_assetStatements hs ht
  have hassets : t.assets = s.tables.assets ++ [Tables.assetRow a] := by rw [heq]
  have hrow : t.assets.find? (·.id == a.id) = some (Tables.assetRow a) := by
    have hnone : s.tables.assets.find? (·.id == a.id) = none :=
      List.find?_eq_none.mpr fun b hb heq => hid b hb (eq_of_beq heq).symm
    simp [hassets, List.find?_append, hnone, Tables.assetRow]
  change (t.assets.find? (·.id == a.id)).map (Tables.readAsset s.clock t) = _
  rw [hrow, Option.map_some, Tables.readAsset_inserted hs s.clock ht,
    Asset.sortProtocols_map_bare]
  rfl

end Relational

/-- What memory gives back is the asset in order. The tables give the same back with its protocols
cut down to their columns and its date read from text, so both give the same just if nothing was
cut off and the date was read. -/
theorem insertAsset_given_back {clock : Time.Instant} {entries : List Relational} {m m' : Memory}
    {s s' : Relational} {a : Asset} (hs : Reachable (Relational.empty clock) entries s)
    (hinsert : Store.insertAsset a m = (.ok (), m'))
    (hinsert' : Store.insertAsset a s = (.ok (), s')) : ∃ b, a.Arranges b ∧
      Store.asset? m' a.id = some b ∧
      Store.asset? s' a.id = some { b with
        protocols := b.protocols.map Protocol.bare
        dateCreated := Tables.readDate s.clock a.dateCreated } ∧
      (Store.asset? s' a.id = Store.asset? m' a.id ↔
        (∀ q ∈ a.protocols, q.Blank) ∧ Tables.readDate s.clock a.dateCreated = a.dateCreated) := by
  have hvalid := Tables.valid_of_reachable hs
  obtain ⟨t, ht, -⟩ := Relational.exists_of_insertAsset hinsert'
  have hmemory := Memory.insertAsset_stored hinsert
  have htables := Relational.insertAsset_stored hvalid hinsert'
  refine ⟨a.arranged, Asset.arranges_arranged (Tables.fits_of_together hvalid ht).names, hmemory,
    htables, ?_⟩
  have hsame : a.arranged.protocols.map Protocol.bare = a.arranged.protocols ↔
      ∀ q ∈ a.protocols, q.Blank := by
    have hperm : a.arranged.protocols.Perm a.protocols := Asset.sortProtocols_perm a.protocols
    have hmap := List.map_inj_left (l := a.arranged.protocols) (f := Protocol.bare) (g := id)
    rw [List.map_id] at hmap
    rw [hmap]
    exact forall_congr' fun q => imp_congr hperm.mem_iff eq_comm
  rw [hmemory, htables, Option.some_inj, ← hsame]
  constructor
  · intro h
    obtain ⟨-, -, -, -, -, -, -, -, -, hprotocols, -, -, hdate⟩ := Asset.mk.inj h
    exact ⟨hprotocols, hdate⟩
  · rintro ⟨hprotocols, hdate⟩
    rw [hprotocols, hdate]
    rfl

def catalogueCalls : List Call :=
  [.insertPlatform ⟨"linux", "Linux", .host, .linux, .utf8, false, false, none, .off, [], [], "",
      ⟨0, 0⟩⟩,
    .insertNode rootNode]

def catalogueMemory : Memory := catalogueCalls.foldl (fun m c => (c.run m).2) Memory.empty

def catalogueTables : Relational :=
  catalogueCalls.foldl (fun s c => (c.run s).2) (Relational.empty ⟨0, 0⟩)

theorem reachable_catalogueMemory : Reachable Memory.empty [] catalogueMemory :=
  Reachable.start.calls catalogueCalls

theorem reachable_catalogueTables : Reachable (Relational.empty ⟨0, 0⟩) [] catalogueTables :=
  Reachable.start.calls catalogueCalls

def requiringAsset : Asset :=
  ⟨"web", "web", "10.0.0.1", "linux", .host, .linux, none, true, "",
    [⟨"ssh", 22, true, true, false, .ofList [.sshKey]⟩, ⟨"http", 80, false, false, false, .empty⟩],
    [⟨"env", "prod"⟩, ⟨"env", "prod"⟩], ["n1", "n1"], ⟨0, 0⟩⟩

theorem insertAsset_given_back_requiring :
    let m' := (Store.insertAsset requiringAsset catalogueMemory).2
    let s' := (Store.insertAsset requiringAsset catalogueTables).2
    Store.insertAsset requiringAsset catalogueMemory = (.ok (), m') ∧
    Store.insertAsset requiringAsset catalogueTables = (.ok (), s') ∧
    ∃ b, requiringAsset.Arranges b ∧ Store.asset? m' "web" = some b ∧
      Store.asset? s' "web" = some { b with
        protocols := b.protocols.map Protocol.bare
        dateCreated := Tables.readDate catalogueTables.clock requiringAsset.dateCreated } ∧
      (Store.asset? s' "web" = Store.asset? m' "web" ↔
        (∀ q ∈ requiringAsset.protocols, q.Blank) ∧
          Tables.readDate catalogueTables.clock requiringAsset.dateCreated =
            requiringAsset.dateCreated) := by
  intro m' s'
  have hm : Store.insertAsset requiringAsset catalogueMemory = (.ok (), m') := Prod.ext rfl rfl
  have hs : Store.insertAsset requiringAsset catalogueTables = (.ok (), s') := Prod.ext rfl rfl
  exact ⟨hm, hs, insertAsset_given_back reachable_catalogueTables hm hs⟩

/-- Stores of the same platforms and nodes both take the asset, and only memory tells afterwards
that it requires a protocol. -/
theorem required_cut_off :
    let m' := (Store.insertAsset requiringAsset catalogueMemory).2
    let s' := (Store.insertAsset requiringAsset catalogueTables).2
    Reachable Memory.empty [] catalogueMemory ∧
    Reachable (Relational.empty ⟨0, 0⟩) [] catalogueTables ∧
    Store.platforms catalogueTables = Store.platforms catalogueMemory ∧
    catalogueTables.tables.nodes = catalogueMemory.records.nodes.values ∧
    Store.insertAsset requiringAsset catalogueMemory = (.ok (), m') ∧
    Store.insertAsset requiringAsset catalogueTables = (.ok (), s') ∧
    (∃ b, Store.asset? m' "web" = some b ∧ ∃ q ∈ b.protocols, q.required = true) ∧
    ∃ b, Store.asset? s' "web" = some b ∧ ∀ q ∈ b.protocols, q.required = false := by
  intro m' s'
  have hm : Store.insertAsset requiringAsset catalogueMemory = (.ok (), m') := Prod.ext rfl rfl
  have hs : Store.insertAsset requiringAsset catalogueTables = (.ok (), s') := Prod.ext rfl rfl
  have hvalid := Tables.valid_of_reachable reachable_catalogueTables
  have hplatforms : Store.platforms catalogueTables = Store.platforms catalogueMemory := by
    change List.map _ (List.mergeSort [_] _) = List.mergeSort [_] _
    rw [List.mergeSort_singleton, List.mergeSort_singleton]
    rfl
  refine ⟨reachable_catalogueMemory, reachable_catalogueTables, hplatforms, rfl, hm, hs,
    ⟨_, Memory.insertAsset_stored hm, ?_⟩, ⟨_, Relational.insertAsset_stored hvalid hs, ?_⟩⟩
  · exact ⟨_, (Asset.sortProtocols_perm requiringAsset.protocols).mem_iff.mpr (.head _), rfl⟩
  · exact List.forall_mem_map.mpr fun _ _ => rfl

end Store

end Custody
