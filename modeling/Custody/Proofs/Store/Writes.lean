import Custody.Proofs.Store.Mirror

/-!
The write calls on records and tables that hold the same: both go through and leave the same, or
both are refused as duplicates.
-/
namespace Custody.Store

/-- Both succeed with related results, or both are refused as duplicates. -/
inductive Agree {α β : Type} (R : α → β → Prop) : Except Error α → Except Error β → Prop
  | ok {a : α} {b : β} : R a b → Agree R (.ok a) (.ok b)
  | refused (c c' : String) : Agree R (.error (.duplicate c)) (.error (.duplicate c'))

theorem Agree.of_refused {α β : Type} {R : α → β → Prop} {x : Except Error α} {y : Except Error β}
    (hx : ∀ a, x ≠ .ok a) (hy : ∀ b, y ≠ .ok b) (hxe : ∀ e, x = .error e → ∃ c, e = .duplicate c)
    (hye : ∀ e, y = .error e → ∃ c, e = .duplicate c) : Agree R x y := by
  cases x with
  | ok a => exact absurd rfl (hx a)
  | error e =>
    cases y with
    | ok b => exact absurd rfl (hy b)
    | error e' =>
      obtain ⟨c, rfl⟩ := hxe e rfl
      obtain ⟨c', rfl⟩ := hye e' rfl
      exact .refused c c'

namespace Mirror

variable {spent : String → Prop} {clock : Time.Instant} {r : Records} {t : Tables}

theorem values_perm_concat {α : Type} {ident : α → String} {o : Keyed α} {rows : List α} {a : α}
    (ho : o.Filed ident) (hperm : o.values.Perm rows) (hnew : ∀ b ∈ rows, ident a ≠ ident b) :
    (o.place (ident a) a).values.Perm (rows ++ [a]) := by
  have hfree : ∀ b ∈ o.values, ident b ≠ ident a := fun b hb =>
    (hnew b (hperm.mem_iff.mp hb)).symm
  exact (ho.values_place_new hfree).trans
    ((hperm.cons a).trans (List.perm_append_singleton a rows).symm)

theorem values_perm_map_concat {α ρ : Type} {ident : α → String} {o : Keyed α} {rows : List ρ}
    {read read' : ρ → α} {a : α} {row : ρ} (ho : o.Filed ident)
    (hperm : o.values.Perm (rows.map read)) (hnew : ∀ b ∈ rows, ident a ≠ ident (read b))
    (hread : ∀ b ∈ rows, read' b = read b) (hrow : read' row = a) :
    (o.place (ident a) a).values.Perm ((rows ++ [row]).map read') := by
  rw [List.map_append, List.map_congr_left hread, List.map_cons, hrow, List.map_nil]
  exact values_perm_concat ho hperm (List.forall_mem_map.mpr hnew)

theorem fresh (h : Mirror spent clock r t) {id : String} (hnew : ¬ spent id) :
    (∀ p ∈ t.platforms, id ≠ p.id) ∧ (∀ a ∈ t.assets, id ≠ a.id) ∧ (∀ n ∈ t.nodes, id ≠ n.id) ∧
      (∀ u ∈ t.templates, id ≠ u.id) ∧ ∀ a ∈ t.accounts, id ≠ a.id := by
  have hid := mt (h.spent id) hnew
  rw [Tables.mem_ids] at hid
  simp only [not_or, not_exists, not_and] at hid
  obtain ⟨hp, ha, hn, hu, hb⟩ := hid
  exact ⟨fun p hp' => (hp p hp').imp Eq.symm, fun a ha' => (ha a ha').imp Eq.symm,
    fun n hn' => (hn n hn').imp Eq.symm, fun u hu' => (hu u hu').imp Eq.symm,
    fun b hb' => (hb b hb').imp Eq.symm⟩

theorem insertPlatform (h : Mirror spent clock r t) {p : Platform} (hnew : ¬ spent p.id)
    (hnames : (p.protocols.map (·.name)).Nodup)
    (hconfig : ∀ v, p.automation.ansibleConfig = some v → readColumn v.compact = v)
    (hdate : Tables.readDate clock p.dateCreated = p.dateCreated) :
    Agree (Mirror (fun id => spent id ∨ id = p.id) clock) (r.insertPlatform p)
      (Tables.together (Tables.platformStatements p) t) := by
  have hid := (h.fresh hnew).1
  by_cases hname : ∀ q ∈ t.platforms, p.name ≠ q.name
  · obtain ⟨t', ht⟩ := (Tables.together_platformStatements_isOk_iff h.valid).mpr
      ⟨fun q hq => ⟨hname q hq, hid q hq⟩, hnames⟩
    obtain ⟨heq, hothers, hread⟩ := Tables.insertPlatform_reads h.valid clock ht
    have hvalid := h.valid.together (Tables.sound_platformStatements p) ht
    rw [Tables.rereadPlatform_eq hconfig hdate] at hread
    have hr : r.insertPlatform p = .ok { r with platforms := r.platforms.place p.id p } := by
      refine Records.insertPlatform_eq_ok_iff.mpr ⟨?_, fun q hq => ?_, rfl⟩
      · rw [h.contains_platform]
        exact List.any_eq_false.mpr fun q hq => by simpa using (hid q hq).symm
      · obtain ⟨row, hrow, rfl⟩ := List.mem_map.mp (h.platforms.mem_iff.mp hq)
        exact (hname row hrow).symm
    rw [hr, ht]
    subst heq
    refine .ok { h with
      filed := { h.filed with platforms := h.filed.platforms.place p }
      valid := hvalid
      platforms := values_perm_map_concat h.filed.platforms h.platforms hid hothers hread
      spent := fun id hmem => ?_ }
    have hids : id ∈ t.ids ∨ id = p.id := by
      simp only [Tables.ids, List.map_append, List.mem_append, List.map_cons, List.map_nil,
        List.mem_singleton] at hmem ⊢
      grind [Tables.platformRow]
    exact hids.imp_left (h.spent id)
  · have hr : r.insertPlatform p = .error (.duplicate "platforms.name") := by
      obtain ⟨q, hq, heq⟩ : ∃ q ∈ t.platforms, p.name = q.name := by simpa using hname
      have hmem := h.platforms.mem_iff.mpr (List.mem_map_of_mem hq)
      refine if_pos ?_
      rw [Bool.or_eq_true, List.any_eq_true]
      exact .inr ⟨_, hmem, beq_iff_eq.mpr heq.symm⟩
    cases hrow : t.insertPlatformRow (Tables.platformRow p) with
    | ok t' =>
      have hfree := (Tables.insertPlatformRow_eq_ok_iff.mp hrow).1
      exact absurd (fun q hq => (hfree q hq).1) hname
    | error e =>
      obtain ⟨c, rfl⟩ := unique_eq_error hrow
      rw [hr, Tables.platformStatements_eq, Tables.together, hrow]
      exact .refused _ c

theorem insertAsset (h : Mirror spent clock r t) {a : Asset} (hnew : ¬ spent a.id)
    (hplatform : t.hasPlatform a.platformId = true) (hnames : (a.protocols.map (·.name)).Nodup)
    (hblank : ∀ q ∈ a.protocols, q.Blank) (hnodes : ∀ n ∈ a.nodeIds, t.hasNode n = true)
    (hdate : Tables.readDate clock a.dateCreated = a.dateCreated) :
    Agree (Mirror (fun id => spent id ∨ id = a.id) clock) (r.insertAsset a)
      (Tables.together (Tables.assetStatements a) t) := by
  have hid := (h.fresh hnew).2.1
  obtain ⟨labels, assetLabels, assetNodes, t', ht, heq, hvalid, hothers, hread⟩ :=
    Tables.insertAsset_reads h.valid clock hid hplatform hnames hblank hnodes
  have hr : r.insertAsset a = .ok { r with assets := r.assets.place a.id a.arranged } := by
    refine Records.insertAsset_eq_ok_iff.mpr ⟨?_, (h.contains_platform _).trans hplatform, rfl⟩
    rw [h.contains_asset]
    exact List.any_eq_false.mpr fun b hb => by simpa using (hid b hb).symm
  rw [hdate] at hread
  rw [hr, ht]
  subst heq
  refine .ok { h with
    filed := { h.filed with assets := h.filed.assets.place a.arranged }
    valid := hvalid
    assets := values_perm_map_concat (a := a.arranged) h.filed.assets h.assets hid hothers hread
    spent := fun id hmem => ?_ }
  have hids : id ∈ t.ids ∨ id = a.id := by
    simp only [Tables.ids, List.map_append, List.mem_append, List.map_cons, List.map_nil,
      List.mem_singleton] at hmem ⊢
    grind [Tables.assetRow]
  exact hids.imp_left (h.spent id)

theorem insertNode (h : Mirror spent clock r t) {n : Node} (hnew : ¬ spent n.id)
    (hparent : ∀ p, n.parentId = some p → t.hasNode p = true) :
    Agree (Mirror (fun id => spent id ∨ id = n.id) clock) (r.insertNode n) (t.insertNode n) := by
  have hid := (h.fresh hnew).2.2.1
  by_cases hpath : ∀ m ∈ t.nodes, n.fullValue ≠ m.fullValue
  · have hr : r.insertNode n = .ok { r with nodes := r.nodes.place n.id n } := by
      refine Records.insertNode_eq_ok_iff.mpr ⟨?_, rfl⟩
      rw [h.node?]
      exact Rows.find?_key_eq_none_iff.mpr fun m hm => (hpath m hm).symm
    have ht : t.insertNode n = .ok { t with nodes := t.nodes ++ [n] } :=
      Tables.insertNode_eq_ok_iff.mpr
        ⟨fun m hm => ⟨hpath m hm, hid m hm⟩, fun p hp => .inr (hparent p hp), rfl⟩
    rw [hr, ht]
    refine .ok { h with
      filed := { h.filed with nodes := h.filed.nodes.place n }
      valid := h.valid.statement (Tables.sound_insertNode n) ht
      nodes := values_perm_concat h.filed.nodes h.nodes hid
      spent := fun id hmem => ?_ }
    have hids : id ∈ t.ids ∨ id = n.id := by
      simp only [Tables.ids, List.map_append, List.mem_append, List.map_cons, List.map_nil,
        List.mem_singleton] at hmem ⊢
      grind
    exact hids.imp_left (h.spent id)
  · refine .of_refused (fun r' hr => hpath ?_) (fun t' ht => hpath ?_) (fun e hr => ?_)
      fun e ht => ?_
    · have hnone := (Records.insertNode_eq_ok_iff.mp hr).1
      rw [h.node?] at hnone
      exact fun m hm => (Rows.find?_key_eq_none_iff.mp hnone m hm).symm
    · exact fun m hm => ((Tables.insertNode_eq_ok_iff.mp ht).1 m hm).1
    · unfold Records.insertNode at hr
      split at hr <;> cases hr
      exact ⟨_, rfl⟩
    · refine checked_eq_error ?_ ht
      cases hp : n.parentId with
      | none => rfl
      | some p => simp [hparent p hp]

theorem insertTemplate (h : Mirror spent clock r t) {u : Template} (hnew : ¬ spent u.id)
    (hdate : Tables.readTemplate clock u = u) :
    Agree (Mirror (fun id => spent id ∨ id = u.id) clock) (r.insertTemplate u)
      (t.insertTemplate u) := by
  have hid := (h.fresh hnew).2.2.2.1
  by_cases hname : ∀ v ∈ t.templates, (u.orgId, u.name) ≠ (v.orgId, v.name)
  · have hr : r.insertTemplate u = .ok { r with templates := r.templates.place u.id u } := by
      refine Records.insertTemplate_eq_ok_iff.mpr ⟨fun v hv horg hname' => ?_, rfl⟩
      exact hname v (h.templates.mem_iff.mp hv) (by rw [horg, hname'])
    have ht : t.insertTemplate u = .ok { t with templates := t.templates ++ [u] } :=
      Tables.insertTemplate_eq_ok_iff.mpr ⟨fun v hv => ⟨hname v hv, hid v hv⟩, rfl⟩
    rw [hr, ht]
    refine .ok { h with
      filed := { h.filed with templates := h.filed.templates.place u }
      valid := h.valid.statement (Tables.sound_insertTemplate u) ht
      templates := values_perm_concat h.filed.templates h.templates hid
      templateDates := Tables.forall_mem_concat h.templateDates hdate
      spent := fun id hmem => ?_ }
    have hids : id ∈ t.ids ∨ id = u.id := by
      simp only [Tables.ids, List.map_append, List.mem_append, List.map_cons, List.map_nil,
        List.mem_singleton] at hmem ⊢
      grind
    exact hids.imp_left (h.spent id)
  · refine .of_refused (fun r' hr => hname ?_) (fun t' ht => hname ?_) (fun e hr => ?_)
      fun e ht => ?_
    · intro v hv heq
      obtain ⟨horg, hname'⟩ := Prod.mk.inj heq
      exact (Records.insertTemplate_eq_ok_iff.mp hr).1 v (h.templates.mem_iff.mpr hv) horg.symm
        hname'.symm
    · exact fun v hv => ((Tables.insertTemplate_eq_ok_iff.mp ht).1 v hv).1
    · exact Records.insertTemplate_eq_error hr
    · exact unique_eq_error ht

theorem checkAccount_eq_ok_iff (h : Mirror spent clock r t) {a : Account} :
    Records.checkAccount a r = .ok () ↔
      checkUnique Tables.accountIndexes (t.accounts.filter (·.id != a.id)) a = .ok () := by
  rw [Records.checkAccount_eq_ok_iff_keys, Tables.checkUnique_accountIndexes_eq_ok_iff]
  simp only [h.accounts.mem_iff, List.mem_filter, bne_iff_ne, and_imp]

theorem insertAccount (h : Mirror spent clock r t) {a : Account} (hnew : ¬ spent a.id)
    (hasset : t.hasAsset a.assetId = true)
    (hsu : ∀ s, a.suFrom = some s → ∃ b ∈ t.accounts, b.id = s ∧ b.assetId = a.assetId)
    (hdates : Tables.readAccount clock a = a) :
    Agree (Mirror (fun id => spent id ∨ id = a.id) clock) (r.insertAccount a)
      (t.insertAccount a) := by
  have hid := (h.fresh hnew).2.2.2.2
  have hothers : t.accounts.filter (·.id != a.id) = t.accounts :=
    List.filter_eq_self.mpr fun b hb => bne_iff_ne.mpr (hid b hb).symm
  have hfound : r.assets.contains a.assetId = true := (h.contains_asset _).trans hasset
  have href (s : String) (hs : a.suFrom = some s) : s = a.id ∨ t.hasAccount s = true := by
    obtain ⟨b, hb, hbid, _⟩ := hsu s hs
    exact .inr (Tables.hasAccount_iff.mpr ⟨b, hb, hbid⟩)
  by_cases hcheck : checkUnique Tables.accountIndexes t.accounts a = .ok ()
  · have hr : r.insertAccount a = .ok { r with accounts := r.accounts.place a.id a } := by
      refine Records.insertAccount_eq_ok_iff.mpr ⟨?_, hfound, ?_, rfl⟩
      · rw [h.contains_account]
        exact List.any_eq_false.mpr fun b hb => by simpa using (hid b hb).symm
      · rw [h.checkAccount_eq_ok_iff, hothers, hcheck]
    have ht : t.insertAccount a = .ok { t with accounts := t.accounts ++ [a] } :=
      Tables.insertAccount_eq_ok_iff.mpr ⟨hid, hcheck, hasset, href, rfl⟩
    rw [hr, ht]
    refine .ok { h with
      filed := { h.filed with accounts := h.filed.accounts.place a }
      valid := h.valid.statement (Tables.sound_insertAccount a) ht
      accounts := values_perm_concat h.filed.accounts h.accounts hid
      accountDates := Tables.forall_mem_concat h.accountDates hdates
      suFrom := Tables.forall_mem_concat
        (fun b hb s hs => Tables.exists_mem_append (h.suFrom b hb s hs) [a])
        fun s hs => Tables.exists_mem_append (hsu s hs) [a]
      spent := fun id hmem => ?_ }
    have hids : id ∈ t.ids ∨ id = a.id := by
      simp only [Tables.ids, List.map_append, List.mem_append, List.map_cons, List.map_nil,
        List.mem_singleton] at hmem ⊢
      grind
    exact hids.imp_left (h.spent id)
  · refine .of_refused (fun r' hr => hcheck ?_) (fun t' ht => hcheck ?_)
      (fun e => Records.insertAccount_eq_error hfound) fun e ht => checked_eq_error ?_ ht
    · have hkeys := (Records.insertAccount_eq_ok_iff.mp hr).2.2.1
      rwa [h.checkAccount_eq_ok_iff, hothers] at hkeys
    · exact (Tables.insertAccount_eq_ok_iff.mp ht).2.1
    · rw [hasset, Bool.true_and]
      cases hs : a.suFrom with
      | none => rfl
      | some s => simpa using href s hs

theorem updateAccount (h : Mirror spent clock r t) {a old : Account} (hold : old ∈ t.accounts)
    (hid : a.id = old.id) (hasset : a.assetId = old.assetId)
    (hcreated : a.dateCreated = old.dateCreated)
    (hsu : ∀ s, a.suFrom = some s → ∃ b ∈ t.accounts, b.id = s ∧ b.assetId = a.assetId)
    (hdates : Tables.readAccount clock a = a) :
    Agree (Mirror spent clock) (r.updateAccount a) (t.updateAccount a) := by
  have hfound : r.accounts.contains a.id = true :=
    (h.contains_account _).trans (Tables.hasAccount_iff.mpr ⟨old, hold, hid.symm⟩)
  have hrow : t.accounts.find? (·.id == a.id) = some old :=
    (Rows.find?_key_eq_some_iff h.valid.keys.accountIds).mpr ⟨hold, hid.symm⟩
  have hsame : { a with assetId := old.assetId, dateCreated := old.dateCreated } = a := by
    rw [← hasset, ← hcreated]
  have href (s : String) (hs : a.suFrom = some s) : t.hasAccount s = true := by
    obtain ⟨b, hb, hbid, _⟩ := hsu s hs
    exact Tables.hasAccount_iff.mpr ⟨b, hb, hbid⟩
  by_cases hcheck :
      checkUnique Tables.accountIndexes (t.accounts.filter (·.id != a.id)) a = .ok ()
  · have hr : r.updateAccount a = .ok { r with accounts := r.accounts.place a.id a } :=
      Records.updateAccount_eq_ok_iff.mpr ⟨hfound, h.checkAccount_eq_ok_iff.mpr hcheck, rfl⟩
    have ht : t.updateAccount a =
        .ok { t with accounts := t.accounts.map fun b => if b.id == a.id then a else b } := by
      refine Tables.updateAccount_eq_ok_iff.mpr ⟨old, hrow, ?_, href, ?_⟩
      · rwa [hsame]
      · rw [hsame]
    have hperm := (h.filed.accounts.values_place a).trans ((h.accounts.filter _).cons a)
    have hkeep (c : Account) (hc : c ∈ t.accounts) : (if c.id == a.id then a else c).id = c.id ∧
        (if c.id == a.id then a else c).assetId = c.assetId := by
      split
      · next heq =>
        obtain rfl := Rows.eq_of_key_eq h.valid.keys.accountIds hc hold
          ((eq_of_beq heq).trans hid)
        exact ⟨hid, hasset⟩
      · exact ⟨rfl, rfl⟩
    rw [hr, ht]
    refine .ok { h with
      filed := { h.filed with accounts := h.filed.accounts.place a }
      valid := h.valid.statement (Tables.sound_updateAccount a) ht
      accounts := hperm.trans
        (Rows.replace_perm a h.valid.keys.accountIds ⟨old, hold, hid.symm⟩).symm
      accountDates := fun b hb => ?_
      suFrom := fun b hb s hs => ?_
      spent := fun id hmem => h.spent id ?_ }
    · obtain ⟨c, hc, rfl⟩ := List.mem_map.mp hb
      split
      · exact hdates
      · exact h.accountDates c hc
    · obtain ⟨c, hc, rfl⟩ := List.mem_map.mp hb
      have hbefore : ∃ d ∈ t.accounts, d.id = s ∧ d.assetId = c.assetId := by
        split at hs
        · next heq =>
          have hsame := (hkeep c hc).2
          rw [if_pos heq] at hsame
          exact hsame ▸ hsu s hs
        · exact h.suFrom c hc s hs
      obtain ⟨d, hd, rfl, hda⟩ := hbefore
      exact ⟨_, List.mem_map_of_mem hd, (hkeep d hd).1,
        (hkeep d hd).2.trans (hda.trans (hkeep c hc).2.symm)⟩
    · have hids : (t.accounts.map fun b => if b.id == a.id then a else b).map (·.id) =
          t.accounts.map (·.id) := by
        rw [List.map_map]
        exact List.map_congr_left fun c hc => (hkeep c hc).1
      simpa only [Tables.ids, hids] using hmem
  · refine .of_refused (fun r' hr => hcheck ?_) (fun t' ht => hcheck ?_)
      (fun e => Records.updateAccount_eq_error hfound) fun e ht => ?_
    · exact h.checkAccount_eq_ok_iff.mp (Records.updateAccount_eq_ok_iff.mp hr).2.1
    · obtain ⟨row, hrow', hkeys, _⟩ := Tables.updateAccount_eq_ok_iff.mp ht
      obtain rfl := Option.some.inj (hrow'.symm.trans hrow)
      rwa [hsame] at hkeys
    · rw [Tables.updateAccount, hrow] at ht
      refine checked_eq_error ?_ ht
      cases hs : a.suFrom with
      | none => rfl
      | some s => exact href s hs

theorem deleteAsset_accounts (h : Mirror spent clock r t) {id : String}
    (hfound : t.hasAsset id = true) :
    (t.deleteAsset id).2.accounts = t.accounts.filter (·.assetId != id) := by
  rw [Tables.deleteAsset, if_pos hfound]
  refine (List.map_congr_left fun a ha => ?_).trans (List.map_id _)
  obtain ⟨ha, hne⟩ := List.mem_filter.mp ha
  have hkept : a.suFrom.filter (fun s =>
      !((t.accounts.filter (·.assetId == id)).map (·.id)).contains s) = a.suFrom := by
    cases hs : a.suFrom with
    | none => rfl
    | some s =>
      obtain ⟨b, hb, rfl, hba⟩ := h.suFrom a ha s hs
      refine Option.filter_eq_some_iff.mpr ⟨rfl, ?_⟩
      refine (Bool.not_eq_true' _).mpr (Bool.eq_false_iff.mpr fun hgone => ?_)
      obtain ⟨c, hc, hcb⟩ := List.mem_map.mp (List.contains_iff_mem.mp hgone)
      obtain ⟨hc, hcid⟩ := List.mem_filter.mp hc
      obtain rfl := Rows.eq_of_key_eq h.valid.keys.accountIds hc hb hcb
      exact bne_iff_ne.mp hne (hba.symm.trans (eq_of_beq hcid))
  exact congrArg (fun s => { a with suFrom := s }) hkept

theorem deleteAsset (h : Mirror spent clock r t) (id : String) :
    (r.deleteAsset id).1 = (t.deleteAsset id).1 ∧
      Mirror spent clock (r.deleteAsset id).2 (t.deleteAsset id).2 := by
  cases hfound : t.hasAsset id with
  | false =>
    have hr : r.deleteAsset id = (false, r) := if_neg (by simp [h.contains_asset, hfound])
    have ht : t.deleteAsset id = (false, t) := if_neg (by simp [hfound])
    rw [hr, ht]
    exact ⟨rfl, h⟩
  | true =>
    have hvalid := h.valid.step (.deleteAsset id)
    have haccounts := h.deleteAsset_accounts hfound
    have hr : r.deleteAsset id = (true, { r with
        assets := r.assets.erase id
        accounts := r.accounts.filter fun p => p.2.assetId ≠ id }) :=
      if_pos ((h.contains_asset id).trans hfound)
    have hassets : (t.deleteAsset id).2.assets = t.assets.filter (·.id != id) := by
      rw [Tables.deleteAsset, if_pos hfound]
    have hread : (t.deleteAsset id).2.assets.map (Tables.readAsset clock (t.deleteAsset id).2) =
        (t.assets.map (Tables.readAsset clock t)).filter (·.id != id) := by
      rw [hassets, List.filter_map]
      refine List.map_congr_left fun row hrow => ?_
      have hne := bne_iff_ne.mp (List.mem_filter.mp hrow).2
      exact Tables.readAsset_deleteAsset h.valid clock hne
    have hframe : (t.deleteAsset id).2.platforms = t.platforms ∧
        (t.deleteAsset id).2.platformProtocols = t.platformProtocols ∧
        (t.deleteAsset id).2.nodes = t.nodes ∧
        (t.deleteAsset id).2.templates = t.templates := by
      rw [Tables.deleteAsset, if_pos hfound]
      exact ⟨rfl, rfl, rfl, rfl⟩
    rw [hr]
    refine ⟨by rw [Tables.deleteAsset, if_pos hfound], ?_⟩
    generalize (t.deleteAsset id).2 = t' at hvalid haccounts hassets hread hframe ⊢
    obtain ⟨hplatforms, hprotocols, hnodes, htemplates⟩ := hframe
    exact {
      filed := { h.filed with
        assets := h.filed.assets.erase id, accounts := h.filed.accounts.filter _ }
      valid := hvalid
      platforms := by
        have hread : Tables.readPlatform clock t' = Tables.readPlatform clock t := by
          funext row
          unfold Tables.readPlatform
          rw [hprotocols]
        rw [hplatforms, hread]
        exact h.platforms
      assets := by
        rw [hread]
        exact (h.filed.assets.values_erase id) ▸ h.assets.filter _
      nodes := hnodes ▸ h.nodes
      templates := htemplates ▸ h.templates
      accounts := by
        have hvalues := Keyed.values_filter r.accounts fun a => decide (a.assetId ≠ id)
        have hsame : r.accounts.values.filter (fun a => decide (a.assetId ≠ id)) =
            r.accounts.values.filter (·.assetId != id) :=
          List.filter_congr fun a _ => Keyed.decide_ne a.assetId id
        rw [haccounts]
        exact (List.Perm.of_eq (hvalues.trans hsame)).trans (h.accounts.filter _)
      templateDates := htemplates ▸ h.templateDates
      accountDates := fun a ha => h.accountDates a (List.mem_filter.mp (haccounts ▸ ha)).1
      suFrom := fun a ha s hs => by
        rw [haccounts] at ha ⊢
        obtain ⟨ha, hne⟩ := List.mem_filter.mp ha
        obtain ⟨b, hb, hbid, hba⟩ := h.suFrom a ha s hs
        exact ⟨b, List.mem_filter.mpr ⟨hb, hba ▸ hne⟩, hbid, hba⟩
      spent := fun i hmem => h.spent i (by
        rw [Tables.mem_ids] at hmem ⊢
        rw [hplatforms, hassets, hnodes, htemplates, haccounts] at hmem
        simp only [List.mem_filter] at hmem
        grind) }

theorem deleteTemplate (h : Mirror spent clock r t) (id : String) :
    Mirror spent clock { r with templates := r.templates.erase id }
      { t with templates := t.templates.filter (·.id != id) } := by
  have hvalues : (r.templates.erase id).values.Perm (t.templates.filter (·.id != id)) := by
    rw [h.filed.templates.values_erase]
    exact h.templates.filter _
  have hvalid : ({ t with templates := t.templates.filter (·.id != id) } : Tables).Valid :=
    h.valid.step (.deleteTemplate id)
  exact { h with
    filed := { h.filed with templates := h.filed.templates.erase id }
    valid := hvalid
    templates := hvalues
    templateDates := fun u hu => h.templateDates u (List.mem_filter.mp hu).1
    spent := fun i hmem => h.spent i (by
      rw [Tables.mem_ids] at hmem ⊢
      simp only [List.mem_filter] at hmem
      grind) }

theorem insertPushTask (h : Mirror spent clock r t) (p : Push) (now : Time.Instant) :
    Mirror spent clock r (t.insertPushTask p now) :=
  { h with valid := h.valid.step (.insertPushTask _ rfl) }

end Mirror

end Custody.Store
