import Custody.Proofs.Protocol
import Custody.Proofs.Sorted
import Custody.Proofs.Store.References

/-!
What the tables give back for an asset. Its labels and nodes are read from the links of its id, so
they depend on which links there are and not on how these came about.
-/
namespace Custody.Store.Tables

variable {t t' : Tables}

def Linked (t : Tables) (asset : String) (l : Label) : Prop :=
  ∃ row ∈ t.labels, row.label = l ∧ ⟨asset, row.id⟩ ∈ t.assetLabels

theorem mem_labelsOf {asset : String} {l : Label} : l ∈ t.labelsOf asset ↔ t.Linked asset l := by
  have hlink (row : LabelRow) :
      ((t.assetLabels.filter (·.assetId == asset)).map (·.labelId)).contains row.id = true ↔
        (⟨asset, row.id⟩ : AssetLabelRow) ∈ t.assetLabels := by
    rw [List.contains_iff_mem, List.mem_map]
    constructor
    · rintro ⟨⟨a, i⟩, hmem, rfl⟩
      obtain ⟨hmem, ha⟩ := List.mem_filter.mp hmem
      exact eq_of_beq ha ▸ hmem
    · exact fun hmem => ⟨_, List.mem_filter.mpr ⟨hmem, beq_self_eq_true asset⟩, rfl⟩
  unfold labelsOf Linked
  rw [List.mem_mergeSort, List.mem_map]
  constructor
  · rintro ⟨row, hrow, rfl⟩
    obtain ⟨hmem, hid⟩ := List.mem_filter.mp hrow
    exact ⟨row, hmem, rfl, (hlink row).mp hid⟩
  · rintro ⟨row, hmem, rfl, hid⟩
    exact ⟨row, List.mem_filter.mpr ⟨hmem, (hlink row).mpr hid⟩, rfl⟩

theorem pairwise_labelsOf (t : Tables) (asset : String) :
    (t.labelsOf asset).Pairwise fun a b => a.le b = true :=
  List.pairwise_mergeSort linear_label.trans linear_label.total _

theorem Keys.nodup_labelsOf (h : t.Keys) (asset : String) : (t.labelsOf asset).Nodup :=
  (List.mergeSort_perm _ _).nodup_iff.mpr (Rows.nodup_filter h.labels _)

def nodeIdsOf (t : Tables) (asset : String) : List String :=
  ((t.assetNodes.filter (·.assetId == asset)).map (·.nodeId)).mergeSort fun a b => a ≤ b

theorem mem_nodeIdsOf {asset node : String} :
    node ∈ t.nodeIdsOf asset ↔ (⟨asset, node⟩ : AssetNodeRow) ∈ t.assetNodes := by
  unfold nodeIdsOf
  rw [List.mem_mergeSort, List.mem_map]
  constructor
  · rintro ⟨⟨a, n⟩, hmem, rfl⟩
    obtain ⟨hmem, ha⟩ := List.mem_filter.mp hmem
    exact eq_of_beq ha ▸ hmem
  · exact fun hmem => ⟨_, List.mem_filter.mpr ⟨hmem, beq_self_eq_true asset⟩, rfl⟩

theorem pairwise_nodeIdsOf (t : Tables) (asset : String) :
    (t.nodeIdsOf asset).Pairwise fun a b => decide (a ≤ b) = true :=
  List.pairwise_mergeSort linear_text.trans linear_text.total _

theorem Keys.nodup_nodeIdsOf (h : t.Keys) (asset : String) : (t.nodeIdsOf asset).Nodup := by
  refine (List.mergeSort_perm _ _).nodup_iff.mpr ?_
  have hlinks : t.assetNodes.Nodup := by simpa using h.assetNodes
  refine List.pairwise_map.mpr ((hlinks.filter _).imp_of_mem fun {l m} hl hm hne heq => hne ?_)
  have hl := eq_of_beq (List.mem_filter.mp hl).2
  have hm := eq_of_beq (List.mem_filter.mp hm).2
  obtain ⟨a, n⟩ := l
  obtain ⟨b, m⟩ := m
  rw [show a = b from hl.trans hm.symm, show n = m from heq]

theorem readAsset_congr (h : t.Keys) (h' : t'.Keys) (clock : Time.Instant) (row : AssetRow)
    (hprotocols : t'.assetProtocols.filter (·.assetId == row.id) =
      t.assetProtocols.filter (·.assetId == row.id))
    (hlabels : ∀ l, t'.Linked row.id l ↔ t.Linked row.id l)
    (hnodes : ∀ n, (⟨row.id, n⟩ : AssetNodeRow) ∈ t'.assetNodes ↔ ⟨row.id, n⟩ ∈ t.assetNodes) :
    readAsset clock t' row = readAsset clock t row := by
  have hl : t'.labelsOf row.id = t.labelsOf row.id :=
    linear_label.eq_of_mem_iff (pairwise_labelsOf _ _) (pairwise_labelsOf _ _)
      (h'.nodup_labelsOf _) (h.nodup_labelsOf _) fun l => by
        rw [mem_labelsOf, mem_labelsOf, hlabels]
  have hn : t'.nodeIdsOf row.id = t.nodeIdsOf row.id :=
    linear_text.eq_of_mem_iff (pairwise_nodeIdsOf _ _) (pairwise_nodeIdsOf _ _)
      (h'.nodup_nodeIdsOf _) (h.nodup_nodeIdsOf _) fun n => by
        rw [mem_nodeIdsOf, mem_nodeIdsOf, hnodes]
  unfold nodeIdsOf at hn
  unfold readAsset
  rw [hprotocols, hl, hn]

theorem together_append_of_ok {fs gs : List Statement} (h : together fs t = .ok t') :
    together (fs ++ gs) t = together gs t' := by
  induction fs generalizing t with
  | nil => cases h; rfl
  | cons f rest ih =>
    rw [together] at h
    rw [List.cons_append, together]
    split at h
    · exact ih h
    · cases h

theorem together_cons_of_ok {f : Statement} {rest : List Statement} (h : f t = .ok t') :
    together (f :: rest) t = together rest t' := by
  rw [together, h]

theorem exists_of_together_cons {f : Statement} {rest : List Statement}
    (h : together (f :: rest) t = .ok t') : ∃ u, f t = .ok u ∧ together rest u = .ok t' := by
  rw [together] at h
  split at h
  · next u hu => exact ⟨u, hu, h⟩
  · cases h

theorem exists_of_together_append {fs gs : List Statement} (h : together (fs ++ gs) t = .ok t') :
    ∃ u, together fs t = .ok u ∧ together gs u = .ok t' := by
  induction fs generalizing t with
  | nil => exact ⟨t, rfl, h⟩
  | cons f rest ih =>
    obtain ⟨u, hf, hrest⟩ := exists_of_together_cons h
    obtain ⟨v, hv, hgs⟩ := ih hrest
    exact ⟨v, (together_cons_of_ok hf).trans hv, hgs⟩

theorem together_put {ρ : Type} (insert : ρ → Statement) (put : List ρ → Tables) {rows : List ρ}
    (h : ∀ before row after, rows = before ++ row :: after →
      insert row (put before) = .ok (put (before ++ [row]))) :
    together (rows.map insert) (put []) = .ok (put rows) := by
  suffices ∀ before after, rows = before ++ after →
      together (after.map insert) (put before) = .ok (put rows) from this [] rows rfl
  intro before after
  induction after generalizing before with
  | nil => rintro rfl; rw [List.append_nil]; rfl
  | cons row after ih =>
    intro hrows
    rw [List.map_cons, together_cons_of_ok (h before row after hrows)]
    exact ih _ (by rw [hrows, List.append_assoc]; rfl)

theorem together_insertAssetProtocol {asset : String} (hasset : t.hasAsset asset = true)
    {rows : List AssetProtocolRow} (hrows : ∀ r ∈ rows, r.assetId = asset)
    (hkeys : ((t.assetProtocols ++ rows).map fun r => (r.assetId, r.name)).Nodup) :
    together (rows.map insertAssetProtocol) t =
      .ok { t with assetProtocols := t.assetProtocols ++ rows } := by
  have h := together_put insertAssetProtocol
    (fun rows => { t with assetProtocols := t.assetProtocols ++ rows })
    fun before row after (hsplit : rows = _) => ?_
  · simpa using h
  · rw [hsplit, ← List.append_assoc] at hkeys
    have hrow : row.assetId = asset := hrows row (by rw [hsplit]; simp)
    refine insertAssetProtocol_eq_ok_iff.mpr ⟨Rows.ne_of_nodup_append hkeys, hrow ▸ hasset, ?_⟩
    simp

theorem together_insertPlatformProtocol {platform : String}
    (hplatform : t.hasPlatform platform = true) {rows : List PlatformProtocolRow}
    (hrows : ∀ r ∈ rows, r.platformId = platform)
    (hkeys : ((t.platformProtocols ++ rows).map fun r => (r.platformId, r.protocol.name)).Nodup) :
    together (rows.map insertPlatformProtocol) t =
      .ok { t with platformProtocols := t.platformProtocols ++ rows } := by
  have h := together_put insertPlatformProtocol
    (fun rows => { t with platformProtocols := t.platformProtocols ++ rows })
    fun before row after (hsplit : rows = _) => ?_
  · simpa using h
  · rw [hsplit, ← List.append_assoc] at hkeys
    have hrow : row.platformId = platform := hrows row (by rw [hsplit]; simp)
    refine insertPlatformProtocol_eq_ok_iff.mpr
      ⟨Rows.ne_of_nodup_append hkeys, hrow ▸ hplatform, ?_⟩
    simp

theorem ensureLabel_eq (hrefs : t.References) (l : Label) : ∃ labels row,
    t.ensureLabel l = .ok { t with labels := labels } ∧
      labelRow? { t with labels := labels } l = some row ∧
      ∀ asset m, Linked { t with labels := labels } asset m ↔ t.Linked asset m := by
  -- A label that was not stored gets a number that no link mentions yet.
  unfold ensureLabel
  cases hrow : t.labelRow? l with
  | some row => exact ⟨t.labels, row, rfl, hrow, fun _ _ => .rfl⟩
  | none =>
    refine ⟨_, ⟨nextId (t.labels.map (·.id)), l⟩, rfl, ?_, fun asset m => ?_⟩
    · have hnone : t.labels.find? (·.label == l) = none := hrow
      simp [labelRow?, List.find?_append, hnone]
    · constructor
      · rintro ⟨row, hmem, hlabel, hlink⟩
        rcases List.mem_append.mp hmem with hmem | hmem
        · exact ⟨row, hmem, hlabel, hlink⟩
        · obtain rfl := List.mem_singleton.mp hmem
          obtain ⟨r, hr, hid⟩ := hrefs.labels _ hlink
          have hlt := lt_nextId (List.mem_map_of_mem (f := LabelRow.id) hr)
          exact absurd hid (Nat.ne_of_lt hlt)
      · rintro ⟨row, hmem, hlabel, hlink⟩
        exact ⟨row, List.mem_append_left _ hmem, hlabel, hlink⟩

theorem linkLabel_eq (hkeys : t.Keys) {asset : String} (hasset : t.hasAsset asset = true)
    {l : Label} {row : LabelRow} (hrow : t.labelRow? l = some row) : ∃ links,
    t.linkLabel asset l = .ok { t with assetLabels := links } ∧
      ∀ a m, Linked { t with assetLabels := links } a m ↔ t.Linked a m ∨ a = asset ∧ m = l := by
  obtain ⟨hmem, rfl⟩ := mem_of_labelRow? hrow
  by_cases hlink : (⟨asset, row.id⟩ : AssetLabelRow) ∈ t.assetLabels
  · refine ⟨t.assetLabels, (linkLabel_eq_ok_iff hrow).mpr (.inl ⟨hlink, rfl⟩), fun a m => ?_⟩
    constructor
    · exact .inl
    · rintro (h | ⟨rfl, rfl⟩)
      · exact h
      · exact ⟨row, hmem, rfl, hlink⟩
  · refine ⟨_, (linkLabel_eq_ok_iff hrow).mpr (.inr ⟨hlink, hasset, rfl⟩), fun a m => ?_⟩
    constructor
    · rintro ⟨r, hr, rfl, hl⟩
      rcases List.mem_append.mp hl with hl | hl
      · exact .inl ⟨r, hr, rfl, hl⟩
      · obtain ⟨rfl, hid⟩ := AssetLabelRow.mk.inj (List.mem_singleton.mp hl)
        rw [Rows.eq_of_key_eq hkeys.labelIds hr hmem hid]
        exact .inr ⟨rfl, rfl⟩
    · rintro (⟨r, hr, rfl, hl⟩ | ⟨rfl, rfl⟩)
      · exact ⟨r, hr, rfl, List.mem_append_left _ hl⟩
      · exact ⟨row, hmem, rfl, List.mem_append_right _ (List.mem_singleton_self _)⟩

theorem together_linkLabels {asset : String} (ls : List Label) (h : t.Valid)
    (hasset : t.hasAsset asset = true) : ∃ labels links,
    together (ls.flatMap fun l => [ensureLabel l, linkLabel asset l]) t =
      .ok { t with labels := labels, assetLabels := links } ∧
      ∀ a m, Linked { t with labels := labels, assetLabels := links } a m ↔
        t.Linked a m ∨ a = asset ∧ m ∈ ls := by
  induction ls generalizing t with
  | nil => exact ⟨t.labels, t.assetLabels, rfl, by simp⟩
  | cons l rest ih =>
    obtain ⟨labels, row, hensure, hrow, hsame⟩ := ensureLabel_eq h.references l
    have h₁ : Valid { t with labels := labels } := h.statement (sound_ensureLabel l) hensure
    obtain ⟨links, hlink, hadded⟩ := linkLabel_eq h₁.keys hasset hrow
    have h₂ : Valid { t with labels := labels, assetLabels := links } :=
      h₁.statement (sound_linkLabel asset l) hlink
    obtain ⟨labels', links', hrest, hlinked⟩ := ih h₂ hasset
    refine ⟨labels', links', ?_, fun a m => ?_⟩
    · change together (ensureLabel l :: linkLabel asset l :: rest.flatMap _) t = _
      rw [together_cons_of_ok hensure, together_cons_of_ok hlink, hrest]
    · rw [hlinked, hadded, hsame, List.mem_cons, or_assoc, ← and_or_left]

theorem together_linkNode {asset : String} (ids : List String)
    (hasset : t.hasAsset asset = true) (hnodes : ∀ n ∈ ids, t.hasNode n = true) : ∃ links,
    together (ids.map (linkNode asset)) t = .ok { t with assetNodes := links } ∧
      ∀ a n, (⟨a, n⟩ : AssetNodeRow) ∈ links ↔
        (⟨a, n⟩ : AssetNodeRow) ∈ t.assetNodes ∨ a = asset ∧ n ∈ ids := by
  induction ids generalizing t with
  | nil => exact ⟨t.assetNodes, rfl, by simp⟩
  | cons id rest ih =>
    obtain ⟨hid, hrest⟩ := List.forall_mem_cons.mp hnodes
    have hone : ∃ links, t.linkNode asset id = .ok { t with assetNodes := links } ∧
        ∀ l, l ∈ links ↔ l ∈ t.assetNodes ∨ l = ⟨asset, id⟩ := by
      by_cases hlink : (⟨asset, id⟩ : AssetNodeRow) ∈ t.assetNodes
      · refine ⟨t.assetNodes, linkNode_eq_ok_iff.mpr (.inl ⟨hlink, rfl⟩), fun l => ?_⟩
        exact ⟨.inl, fun hl => hl.elim (fun h => h) fun heq => heq ▸ hlink⟩
      · exact ⟨_, linkNode_eq_ok_iff.mpr (.inr ⟨hlink, hasset, hid, rfl⟩), by simp⟩
    obtain ⟨links, hstep, hadded⟩ := hone
    obtain ⟨links', hall, hlinked⟩ := ih (t := { t with assetNodes := links }) hasset hrest
    refine ⟨links', by rw [List.map_cons, together_cons_of_ok hstep, hall], fun a n => ?_⟩
    rw [hlinked, hadded, AssetNodeRow.mk.injEq, List.mem_cons, or_assoc, ← and_or_left]

def assetRow (a : Asset) : AssetRow :=
  ⟨a.id, a.name, a.address, a.platformId, a.category, a.type, a.domain, a.isActive, a.comment,
    a.dateCreated⟩

def protocolRows (a : Asset) : List AssetProtocolRow :=
  a.protocols.map fun q => ⟨a.id, q.name, q.port, q.primary⟩

theorem assetStatements_eq (a : Asset) : assetStatements a = insertAssetRow (assetRow a) ::
    ((protocolRows a).map insertAssetProtocol ++
      ((a.labels.flatMap fun l => [ensureLabel l, linkLabel a.id l]) ++
        a.nodeIds.map (linkNode a.id))) := by
  rw [protocolRows, List.map_map, assetStatements, List.cons_append, List.cons_append,
    List.append_assoc]
  rfl

theorem together_assetStatements (h : t.Valid) {a : Asset} (hid : ∀ b ∈ t.assets, a.id ≠ b.id)
    (hplatform : t.hasPlatform a.platformId = true) (hnames : (a.protocols.map (·.name)).Nodup)
    (hnodes : ∀ n ∈ a.nodeIds, t.hasNode n = true) : ∃ labels assetLabels assetNodes t',
    together (assetStatements a) t = .ok t' ∧
      t' = { t with
        assets := t.assets ++ [assetRow a], assetProtocols := t.assetProtocols ++ protocolRows a
        labels := labels, assetLabels := assetLabels, assetNodes := assetNodes } ∧
      (∀ b m, t'.Linked b m ↔ t.Linked b m ∨ b = a.id ∧ m ∈ a.labels) ∧
      ∀ b n, (⟨b, n⟩ : AssetNodeRow) ∈ assetNodes ↔
        (⟨b, n⟩ : AssetNodeRow) ∈ t.assetNodes ∨ b = a.id ∧ n ∈ a.nodeIds := by
  have hrow : t.insertAssetRow (assetRow a) = .ok _ :=
    insertAssetRow_eq_ok_iff.mpr ⟨hid, hplatform, rfl⟩
  have h₁ := h.statement (sound_insertAssetRow _) hrow
  have hasset : hasAsset { t with assets := t.assets ++ [assetRow a] } a.id = true := by
    simp [hasAsset, assetRow]
  have hkeys : ((t.assetProtocols ++ protocolRows a).map fun r => (r.assetId, r.name)).Nodup := by
    rw [List.map_append, List.nodup_append]
    refine ⟨h.keys.assetProtocols, ?_, fun k hk l hl heq => ?_⟩
    · rw [protocolRows, List.map_map]
      exact List.pairwise_map.mpr ((List.pairwise_map.mp hnames).imp fun hne heq =>
        hne (Prod.mk.inj heq).2)
    · obtain ⟨r, hr, rfl⟩ := List.mem_map.mp hk
      obtain ⟨q, hq, rfl⟩ := List.mem_map.mp hl
      obtain ⟨p, _, rfl⟩ := List.mem_map.mp hq
      obtain ⟨b, hb, hbid⟩ := h.references.assetProtocols r hr
      exact hid b hb ((Prod.mk.inj heq).1.symm.trans hbid.symm)
  have hprotocols := together_insertAssetProtocol hasset (by simp [protocolRows]) hkeys
  have h₂ := h₁.together (fun f hf => by
    obtain ⟨r, _, rfl⟩ := List.mem_map.mp hf
    exact sound_insertAssetProtocol r) hprotocols
  obtain ⟨labels, assetLabels, hlabels, hlinked⟩ := together_linkLabels a.labels h₂ hasset
  obtain ⟨assetNodes, hlinks, hnodes⟩ := together_linkNode a.nodeIds (t := { t with
    assets := t.assets ++ [assetRow a], assetProtocols := t.assetProtocols ++ protocolRows a
    labels := labels, assetLabels := assetLabels }) hasset hnodes
  refine ⟨labels, assetLabels, assetNodes, _, ?_, rfl, hlinked, hnodes⟩
  rw [assetStatements_eq, together_cons_of_ok hrow, together_append_of_ok hprotocols,
    together_append_of_ok hlabels, hlinks]

/-- What an asset needs to go in. -/
structure Fits (t : Tables) (a : Asset) : Prop where
  newId : ∀ b ∈ t.assets, a.id ≠ b.id
  platform : t.hasPlatform a.platformId = true
  names : (a.protocols.map (·.name)).Nodup
  nodes : ∀ n ∈ a.nodeIds, t.hasNode n = true

theorem nodup_names_of_rows {a : Asset}
    (h : ((protocolRows a).map fun r => (r.assetId, r.name)).Nodup) :
    (a.protocols.map (·.name)).Nodup := by
  rw [protocolRows, List.map_map] at h
  exact List.pairwise_map.mpr ((List.pairwise_map.mp h).imp fun hne heq =>
    hne (Prod.ext rfl heq))

theorem eq_of_together_insertAssetProtocol {rows : List AssetProtocolRow}
    (h : together (rows.map insertAssetProtocol) t = .ok t') :
    t' = { t with assetProtocols := t.assetProtocols ++ rows } := by
  induction rows generalizing t with
  | nil => simpa [together] using h.symm
  | cons row rest ih =>
    obtain ⟨u, hu, hrest⟩ := exists_of_together_cons h
    obtain ⟨_, _, rfl⟩ := insertAssetProtocol_eq_ok_iff.mp hu
    simpa using ih hrest

theorem hasNode_of_together_linkNode {asset : String} {ids : List String} (h : t.Valid)
    (ht : together (ids.map (linkNode asset)) t = .ok t') : ∀ n ∈ ids, t.hasNode n = true := by
  induction ids generalizing t with
  | nil => simp
  | cons id rest ih =>
    obtain ⟨u, hu, hrest⟩ := exists_of_together_cons ht
    have hrest := ih (h.statement (sound_linkNode asset id) hu) hrest
    rcases linkNode_eq_ok_iff.mp hu with ⟨hlink, rfl⟩ | ⟨_, _, hid, rfl⟩
    · exact List.forall_mem_cons.mpr ⟨hasNode_iff.mpr (h.references.nodes _ hlink), hrest⟩
    · exact List.forall_mem_cons.mpr ⟨hid, hrest⟩

theorem fits_of_together (h : t.Valid) {a : Asset} (ht : together (assetStatements a) t = .ok t') :
    t.Fits a := by
  rw [assetStatements_eq] at ht
  obtain ⟨t₁, hrow, ht⟩ := exists_of_together_cons ht
  obtain ⟨t₂, hprotocols, ht⟩ := exists_of_together_append ht
  obtain ⟨t₃, hlabels, hnodes⟩ := exists_of_together_append ht
  have h₁ := h.statement (sound_insertAssetRow _) hrow
  have h₂ := h₁.together (fun f hf => by
    obtain ⟨r, _, rfl⟩ := List.mem_map.mp hf
    exact sound_insertAssetProtocol r) hprotocols
  have h₃ := h₂.together (fun f hf => by
    obtain ⟨l, _, hf⟩ := List.mem_flatMap.mp hf
    rcases List.mem_cons.mp hf with rfl | hf
    · exact sound_ensureLabel l
    · exact List.mem_singleton.mp hf ▸ sound_linkLabel a.id l) hlabels
  have hlinks := hasNode_of_together_linkNode h₃ hnodes
  obtain ⟨hid, hplatform, rfl⟩ := insertAssetRow_eq_ok_iff.mp hrow
  obtain rfl := eq_of_together_insertAssetProtocol hprotocols
  have hasset : hasAsset { t with assets := t.assets ++ [assetRow a] } a.id = true := by
    simp [hasAsset, assetRow]
  obtain ⟨labels, links, hlinked, -⟩ := together_linkLabels a.labels h₂ hasset
  obtain rfl := Except.ok.inj (hlinked.symm.trans hlabels)
  have hkeys := h₂.keys.assetProtocols
  rw [List.map_append] at hkeys
  exact ⟨hid, hplatform, nodup_names_of_rows (List.nodup_append.mp hkeys).2.1, hlinks⟩

theorem eq_of_together_assetStatements (h : t.Valid) {a : Asset}
    (ht : together (assetStatements a) t = .ok t') : ∃ labels assetLabels assetNodes,
    t' = { t with
      assets := t.assets ++ [assetRow a], assetProtocols := t.assetProtocols ++ protocolRows a
      labels := labels, assetLabels := assetLabels, assetNodes := assetNodes } ∧
    (∀ b m, t'.Linked b m ↔ t.Linked b m ∨ b = a.id ∧ m ∈ a.labels) ∧
    ∀ b n, (⟨b, n⟩ : AssetNodeRow) ∈ assetNodes ↔
      (⟨b, n⟩ : AssetNodeRow) ∈ t.assetNodes ∨ b = a.id ∧ n ∈ a.nodeIds := by
  obtain ⟨hid, hplatform, hnames, hnodes⟩ := fits_of_together h ht
  obtain ⟨labels, assetLabels, assetNodes, u, hu, heffect⟩ :=
    together_assetStatements h hid hplatform hnames hnodes
  obtain rfl := Except.ok.inj (hu.symm.trans ht)
  exact ⟨labels, assetLabels, assetNodes, heffect⟩

theorem insertAsset_keeps (h : t.Valid) (clock : Time.Instant) {a : Asset}
    (ht : together (assetStatements a) t = .ok t') :
    ∀ row ∈ t.assets, readAsset clock t' row = readAsset clock t row := by
  -- No row refers to the new id yet, so the assets that were stored are read as before.
  have hid := (fits_of_together h ht).newId
  obtain ⟨labels, assetLabels, assetNodes, heq, hlinked, hlinks⟩ :=
    eq_of_together_assetStatements h ht
  have hvalid := h.together (sound_assetStatements a) ht
  have hprotocols : t'.assetProtocols = t.assetProtocols ++ protocolRows a := by rw [heq]
  have hassetNodes : t'.assetNodes = assetNodes := by rw [heq]
  intro row hrow
  have hne : row.id ≠ a.id := (hid row hrow).symm
  refine readAsset_congr h.keys hvalid.keys clock row ?_ (fun l => ?_) fun n => ?_
  · have hnone : (protocolRows a).filter (·.assetId == row.id) = [] :=
      List.filter_eq_nil_iff.mpr (by simp [protocolRows, hne.symm])
    rw [hprotocols, List.filter_append, hnone, List.append_nil]
  · rw [hlinked]
    exact ⟨fun hl => hl.resolve_right fun h => hne h.1, .inl⟩
  · rw [hassetNodes, hlinks]
    exact ⟨fun hl => hl.resolve_right fun h => hne h.1, .inl⟩

theorem readAsset_inserted (h : t.Valid) (clock : Time.Instant) {a : Asset}
    (ht : together (assetStatements a) t = .ok t') :
    readAsset clock t' (assetRow a) = { a.arranged with
      protocols := Asset.sortProtocols (a.protocols.map Protocol.bare)
      dateCreated := readDate clock a.dateCreated } := by
  have hid := (fits_of_together h ht).newId
  obtain ⟨labels, assetLabels, assetNodes, heq, hlinked, hlinks⟩ :=
    eq_of_together_assetStatements h ht
  have hvalid := h.together (sound_assetStatements a) ht
  have hprotocols : t'.assetProtocols = t.assetProtocols ++ protocolRows a := by rw [heq]
  have hassetNodes : t'.assetNodes = assetNodes := by rw [heq]
  -- No row refers to the new id yet, so all that is read for it has just been stored.
  have hrows : t'.assetProtocols.filter (·.assetId == a.id) = protocolRows a := by
    have hnone : t.assetProtocols.filter (·.assetId == a.id) = [] := by
      refine List.filter_eq_nil_iff.mpr fun r hr heq => ?_
      obtain ⟨b, hb, hbid⟩ := h.references.assetProtocols r hr
      exact hid b hb ((eq_of_beq heq).symm.trans hbid.symm)
    have hall : (protocolRows a).filter (·.assetId == a.id) = protocolRows a :=
      List.filter_eq_self.mpr (by simp [protocolRows])
    rw [hprotocols, List.filter_append, hnone, hall, List.nil_append]
  have hread : (protocolRows a).map (fun q => (⟨q.name, q.port, q.primary, false, false, .empty⟩ :
      Protocol)) = a.protocols.map Protocol.bare := by
    rw [protocolRows, List.map_map]
    rfl
  have hlabels : t'.labelsOf a.id = Asset.sortLabels a.labels := by
    refine linear_label.eq_dropRepeats_mergeSort (pairwise_labelsOf _ _)
      (hvalid.keys.nodup_labelsOf _) fun l => ?_
    rw [mem_labelsOf, hlinked]
    refine ⟨fun hl => ?_, fun hl => .inr ⟨rfl, hl⟩⟩
    rcases hl with ⟨_, _, _, hlink⟩ | ⟨_, hl⟩
    · obtain ⟨b, hb, hbid⟩ := h.references.assetLabels _ hlink
      exact absurd hbid.symm (hid b hb)
    · exact hl
  have hnodeIds : t'.nodeIdsOf a.id = Asset.sortNodeIds a.nodeIds := by
    refine linear_text.eq_dropRepeats_mergeSort (pairwise_nodeIdsOf _ _)
      (hvalid.keys.nodup_nodeIdsOf _) fun n => ?_
    rw [mem_nodeIdsOf, hassetNodes, hlinks]
    refine ⟨fun hl => ?_, fun hl => .inr ⟨rfl, hl⟩⟩
    rcases hl with hlink | ⟨_, hl⟩
    · obtain ⟨b, hb, hbid⟩ := h.references.assetNodes _ hlink
      exact absurd hbid.symm (hid b hb)
    · exact hl
  unfold nodeIdsOf at hnodeIds
  unfold readAsset
  simp only [assetRow] at hrows hlabels hnodeIds ⊢
  rw [hrows, hread, hlabels, hnodeIds]
  rfl

/-- An asset of protocols that say no more than entries is read back in its arranged form, and the
others as before. -/
theorem insertAsset_reads (h : t.Valid) (clock : Time.Instant) {a : Asset}
    (hid : ∀ b ∈ t.assets, a.id ≠ b.id) (hplatform : t.hasPlatform a.platformId = true)
    (hnames : (a.protocols.map (·.name)).Nodup) (hblank : ∀ q ∈ a.protocols, q.Blank)
    (hnodes : ∀ n ∈ a.nodeIds, t.hasNode n = true) : ∃ labels assetLabels assetNodes t',
    together (assetStatements a) t = .ok t' ∧
      t' = { t with
        assets := t.assets ++ [assetRow a], assetProtocols := t.assetProtocols ++ protocolRows a
        labels := labels, assetLabels := assetLabels, assetNodes := assetNodes } ∧
      t'.Valid ∧ (∀ row ∈ t.assets, readAsset clock t' row = readAsset clock t row) ∧
      readAsset clock t' (assetRow a) =
        { a.arranged with dateCreated := readDate clock a.dateCreated } := by
  obtain ⟨labels, assetLabels, assetNodes, t', ht, heq, -⟩ :=
    together_assetStatements h hid hplatform hnames hnodes
  refine ⟨labels, assetLabels, assetNodes, t', ht, heq, h.together (sound_assetStatements a) ht,
    insertAsset_keeps h clock ht, ?_⟩
  have hbare : a.protocols.map Protocol.bare = a.protocols :=
    (List.map_congr_left fun q hq => (hblank q hq).bare_eq).trans (List.map_id _)
  rw [readAsset_inserted h clock ht, hbare]
  rfl

theorem readAsset_deleteAsset (h : t.Valid) (clock : Time.Instant) {id : String} {row : AssetRow}
    (hrow : row.id ≠ id) :
    readAsset clock (t.deleteAsset id).2 row = readAsset clock t row := by
  have hvalid := h.step (.deleteAsset id)
  refine readAsset_congr h.keys hvalid.keys clock row ?_ (fun l => ?_) fun n => ?_ <;>
    unfold Tables.deleteAsset <;> split
  case refine_1.isTrue =>
    refine (List.filter_filter ..).trans (List.filter_congr fun q _ => ?_)
    cases hq : q.assetId == row.id with
    | false => rfl
    | true => rw [eq_of_beq hq, bne_iff_ne.mpr hrow]; rfl
  case refine_2.isTrue =>
    refine exists_congr fun r => and_congr_right fun _ => and_congr_right fun _ => ?_
    exact List.mem_filter.trans (and_iff_left (bne_iff_ne.mpr hrow))
  case refine_3.isTrue => exact List.mem_filter.trans (and_iff_left (bne_iff_ne.mpr hrow))
  all_goals rfl

def platformRow (p : Platform) : PlatformRow :=
  ⟨p.id, p.name, p.category, p.type, p.charset, p.domainEnabled, p.suEnabled, p.suMethod,
    { p.automation with ansibleConfig := none }, p.automation.ansibleConfig.map (·.compact),
    p.customFields, p.comment, p.dateCreated⟩

def platformProtocolRows (p : Platform) : List PlatformProtocolRow :=
  p.protocols.map fun q => ⟨p.id, q⟩

theorem platformStatements_eq (p : Platform) : platformStatements p =
    insertPlatformRow (platformRow p) :: (platformProtocolRows p).map insertPlatformProtocol := by
  rw [platformProtocolRows, List.map_map]
  rfl

/-- A platform as the tables give it back, with its configuration and its date read from text. -/
def rereadPlatform (clock : Time.Instant) (p : Platform) : Platform :=
  { p with
    automation := { p.automation with
      ansibleConfig := p.automation.ansibleConfig.map fun v => readColumn v.compact }
    dateCreated := readDate clock p.dateCreated }

theorem rereadPlatform_eq {clock : Time.Instant} {p : Platform}
    (hconfig : ∀ v, p.automation.ansibleConfig = some v → readColumn v.compact = v)
    (hdate : readDate clock p.dateCreated = p.dateCreated) : rereadPlatform clock p = p := by
  have hcolumn : (p.automation.ansibleConfig.map fun v => readColumn v.compact) =
      p.automation.ansibleConfig := by
    cases hc : p.automation.ansibleConfig with
    | none => rfl
    | some v => exact congrArg some (hconfig v hc)
  rw [rereadPlatform, hcolumn, hdate]

theorem eq_of_together_insertPlatformProtocol {rows : List PlatformProtocolRow}
    (h : together (rows.map insertPlatformProtocol) t = .ok t') :
    t' = { t with platformProtocols := t.platformProtocols ++ rows } := by
  induction rows generalizing t with
  | nil => simpa [together] using h.symm
  | cons row rest ih =>
    obtain ⟨u, hu, hrest⟩ := exists_of_together_cons h
    obtain ⟨_, _, rfl⟩ := insertPlatformProtocol_eq_ok_iff.mp hu
    simpa using ih hrest

theorem together_platformStatements_isOk_iff (h : t.Valid) {p : Platform} :
    (∃ t', together (platformStatements p) t = .ok t') ↔
      (∀ q ∈ t.platforms, p.name ≠ q.name ∧ p.id ≠ q.id) ∧
        (p.protocols.map (·.name)).Nodup := by
  rw [platformStatements_eq]
  constructor
  · rintro ⟨t', ht⟩
    obtain ⟨u, hrow, hprotocols⟩ := exists_of_together_cons ht
    have hu := h.statement (sound_insertPlatformRow _) hrow
    have ht' := hu.together (fun f hf => by
      obtain ⟨r, _, rfl⟩ := List.mem_map.mp hf
      exact sound_insertPlatformProtocol r) hprotocols
    obtain ⟨hfree, rfl⟩ := insertPlatformRow_eq_ok_iff.mp hrow
    obtain rfl := eq_of_together_insertPlatformProtocol hprotocols
    have hkeys := ht'.keys.platformProtocols
    rw [List.map_append] at hkeys
    have hrows := (List.nodup_append.mp hkeys).2.1
    rw [platformProtocolRows, List.map_map] at hrows
    exact ⟨hfree, List.pairwise_map.mpr ((List.pairwise_map.mp hrows).imp fun hne heq =>
      hne (Prod.ext rfl heq))⟩
  · rintro ⟨hfree, hnames⟩
    have hrow : t.insertPlatformRow (platformRow p) = .ok _ :=
      insertPlatformRow_eq_ok_iff.mpr ⟨hfree, rfl⟩
    have hplatform :
        hasPlatform { t with platforms := t.platforms ++ [platformRow p] } p.id = true := by
      simp [hasPlatform, platformRow]
    have hkeys : ((t.platformProtocols ++ platformProtocolRows p).map
        fun r => (r.platformId, r.protocol.name)).Nodup := by
      rw [List.map_append, List.nodup_append]
      refine ⟨h.keys.platformProtocols, ?_, fun k hk l hl heq => ?_⟩
      · rw [platformProtocolRows, List.map_map]
        exact List.pairwise_map.mpr ((List.pairwise_map.mp hnames).imp fun hne heq =>
          hne (Prod.mk.inj heq).2)
      · obtain ⟨r, hr, rfl⟩ := List.mem_map.mp hk
        obtain ⟨q, hq, rfl⟩ := List.mem_map.mp hl
        obtain ⟨_, _, rfl⟩ := List.mem_map.mp hq
        obtain ⟨o, ho, hid⟩ := h.references.platformProtocols r hr
        exact (hfree o ho).2 ((Prod.mk.inj heq).1.symm.trans hid.symm)
    exact ⟨_, (together_cons_of_ok hrow).trans
      (together_insertPlatformProtocol hplatform (by simp [platformProtocolRows]) hkeys)⟩

/-- The stored platform is read back, and the others as before. -/
theorem insertPlatform_reads (h : t.Valid) (clock : Time.Instant) {p : Platform}
    (ht : together (platformStatements p) t = .ok t') :
    t' = { t with
      platforms := t.platforms ++ [platformRow p]
      platformProtocols := t.platformProtocols ++ platformProtocolRows p } ∧
    (∀ row ∈ t.platforms, readPlatform clock t' row = readPlatform clock t row) ∧
    readPlatform clock t' (platformRow p) = rereadPlatform clock p := by
  have hfree := ((together_platformStatements_isOk_iff h).mp ⟨t', ht⟩).1
  rw [platformStatements_eq] at ht
  obtain ⟨u, hrow, hprotocols⟩ := exists_of_together_cons ht
  obtain ⟨-, rfl⟩ := insertPlatformRow_eq_ok_iff.mp hrow
  obtain rfl := eq_of_together_insertPlatformProtocol hprotocols
  refine ⟨rfl, fun row hmem => ?_, ?_⟩
  · have hnew : (platformProtocolRows p).filter (·.platformId == row.id) = [] :=
      List.filter_eq_nil_iff.mpr (by simp [platformProtocolRows, (hfree row hmem).2])
    simp only [readPlatform, List.filter_append, hnew, List.append_nil]
  · have hnone : t.platformProtocols.filter (·.platformId == p.id) = [] := by
      refine List.filter_eq_nil_iff.mpr fun r hr heq => ?_
      obtain ⟨q, hq, hqid⟩ := h.references.platformProtocols r hr
      exact (hfree q hq).2 ((eq_of_beq heq).symm.trans hqid.symm)
    have hall : (platformProtocolRows p).filter (·.platformId == p.id) = platformProtocolRows p :=
      List.filter_eq_self.mpr (by simp [platformProtocolRows])
    have hread : (platformProtocolRows p).map (·.protocol) = p.protocols := by
      rw [platformProtocolRows, List.map_map]
      exact List.map_id _
    simp only [readPlatform, rereadPlatform, platformRow, List.filter_append, hnone, hall,
      List.nil_append, hread, Option.map_map, Function.comp_def]

end Custody.Store.Tables
