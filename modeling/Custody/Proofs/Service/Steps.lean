import Custody.Proofs.Bulk.Lockstep
import Custody.Proofs.Service.Values
import Custody.Proofs.Service.Within

/-!
The operations on both stores, step by step, but for the creation of assets. What each looks up and
decides is the same in both worlds, so they write the same or stop with the same error.
-/
namespace Custody

open Run Store

variable {draws : Nat → Draw} {clock : Time.Instant} {reserved : List Nat} {n : Nat}
  {w : World Memory} {v : World Relational}

def Stopped (draws : Nat → Draw) (clock : Time.Instant) (e e' : Error) (w : World Memory)
    (v : World Relational) : Prop := e.Alike e' ∧ Related draws clock [] w v

def Arrived {α : Type} (draws : Nat → Draw) (clock : Time.Instant) (a b : α) (w : World Memory)
    (v : World Relational) : Prop := a = b ∧ Related draws clock [] w v

namespace Store.Related

theorem stop (h : Related draws clock reserved w v) (e : Error) : Stopped draws clock e e w v :=
  ⟨.same e, h.settled⟩

theorem drawing {α β : Type} {k : Draw → Run Memory α} {l : Draw → Run Relational β}
    {value : α → β → World Memory → World Relational → Prop}
    {error : Error → Error → World Memory → World Relational → Prop}
    (h : Related draws clock reserved w v)
    (hk : ∀ n w' v', Related draws clock (n :: reserved) w' v' → v'.store = v.store →
      Both (k (draws n)) (l (draws n)) w' v' value error) :
    Both (Run.draw >>= k) (Run.draw >>= l) w v value error := by
  have hw : w.supply.draws w.supply.used = draws w.supply.used := by rw [h.source]
  have hv : v.supply.draws v.supply.used = draws w.supply.used := by rw [← h.supply, h.source]
  refine .bind (.draw ?_)
  rw [hw, hv]
  exact hk _ _ _ h.draw rfl

end Store.Related

namespace Service

theorem withTemplate_both (h : Related draws clock reserved w v) (template : Option String)
    (schema : Field.Schema) (payload : Json.Object)
    {value : Json.Object × Option String → Json.Object × Option String →
      World Memory → World Relational → Prop}
    {error : Error → Error → World Memory → World Relational → Prop}
    (hv : ∀ r, value r r w v) (he : ∀ e, error e e w v) :
    Both (withTemplate template schema payload) (withTemplate template schema payload) w v value
      error := by
  cases template with
  | none => exact .pure (hv _)
  | some id => exact .bind (.find (h.template? id) (fun t _ => .pure (.pure (hv _))) he)

theorem checkSuFrom_both {value : Unit → Unit → World Memory → World Relational → Prop}
    {error : Error → Error → World Memory → World Relational → Prop}
    (h : Related draws clock reserved w v) (suFrom assetId : String) (self : Option String)
    (hv : (∃ b ∈ v.store.tables.accounts, b.id = suFrom ∧ b.assetId = assetId) → value () () w v)
    (he : ∀ e, error e e w v) :
    Both (checkSuFrom suFrom assetId self) (checkSuFrom suFrom assetId self) w v value error := by
  unfold checkSuFrom
  refine .refusing he fun _ => ?_
  refine .find (h.account? suFrom) (fun b hb => ?_) he
  obtain ⟨hmem, hid⟩ := h.mem_of_find?_account hb
  split
  · exact .throw (he _)
  · next hsame => exact .pure (hv ⟨b, hmem, eq_of_beq hid, not_not.mp hsame⟩)

theorem pushIfAsked_both {value : Unit → Unit → World Memory → World Relational → Prop}
    {error : Error → Error → World Memory → World Relational → Prop}
    (h : Related draws clock [] w v) (c : Controls) (ids ids' : List String)
    (now : Time.Instant) (hv : ∀ w' v', Related draws clock [] w' v' → value () () w' v') :
    Both (pushIfAsked c ids now) (pushIfAsked c ids' now) w v value error := by
  have hpush (p : Push) : Related draws clock [] w
      { v with store := { v.store with tables := v.store.tables.insertPushTask p now } } :=
    h.keep (h.mirror.insertPushTask p now)
  unfold pushIfAsked
  split
  · split
    · exact .ok rfl rfl (hv _ _ { hpush ⟨ids', c.params⟩ with })
    · exact .ok rfl rfl (hv _ _ { h with })
  · split
    · exact .ok rfl rfl (hv _ _ (hpush ⟨ids', c.params⟩))
    · exact .ok rfl rfl (hv _ _ h)

theorem createAccount_both (h : Related draws clock [] w v) (payload : Json.Object)
    (policy : Policy) :
    Both (createAccount payload policy) (createAccount payload policy) w v (Arrived draws clock)
      (Stopped draws clock) := by
  have hstop := h.stop
  refine .bind (.of (fun ⟨controls, payload⟩ _ => ?_) hstop)
  refine .bind (withTemplate_both h _ _ _ (fun ⟨values, templateId⟩ => ?_) hstop)
  refine .bind (.of (fun _ _ => .bind (.of (fun assetId _ => ?_) hstop)) hstop)
  refine .bind (.of (fun username _ => ?_) hstop)
  refine .find (h.asset? assetId) (fun asset hfound => ?_) hstop
  obtain ⟨hasset, rfl⟩ := Relational.hasAsset_of_asset? hfound
  extract_lets suFrom store store'
  have hstore (hsu : ∀ s, suFrom = some s →
      ∃ b ∈ v.store.tables.accounts, b.id = s ∧ b.assetId = asset.id) :
      Both (store ()) (store' ()) w v (Arrived draws clock) (Stopped draws clock) := by
    refine h.drawing fun n w' v' h' hsame => ?_
    rw [← hsame] at hasset hsu
    refine .bind (.ask ?_)
    rw [h'.choose]
    refine .bind (.of (fun candidate hcandidate => ?_) h'.stop)
    obtain ⟨hid, -, -, -, hfrom⟩ := candidateOf_eq_ok hcandidate
    rw [Memory.seamless.reconcile, Relational.seamless.reconcile]
    refine .bind ((candidate.reconcile_both h' (hid ▸ hasset) (hid ▸ hfrom ▸ hsu) .nameOrSlot _
      (.inl rfl)).mono ?_ ?_)
    · rintro ⟨a, o⟩ _ w'' v'' ⟨rfl, h'', -⟩
      dsimp only
      split
      · exact .bind (pushIfAsked_both h'' controls _ _ _ fun _ _ h₃ => .pure ⟨rfl, h₃⟩)
      · exact .pure ⟨rfl, h''⟩
    · rintro e e' w'' v'' ⟨halike, rfl, rfl⟩
      exact ⟨halike, h'.settled⟩
  cases hother : suFrom with
  | none => exact hstore (by simp [hother])
  | some other =>
    refine .bind (checkSuFrom_both h other _ none (fun hfound => hstore ?_) hstop)
    rintro s hs
    cases hother.symm.trans hs
    exact hfound

theorem updateAccount_both (h : Related draws clock [] w v) (id : String)
    (payload : Json.Object) :
    Both (updateAccount id payload) (updateAccount id payload) w v (Arrived draws clock)
      (Stopped draws clock) := by
  have hstop := h.stop
  refine .bind (.of (fun ⟨controls, payload⟩ _ => ?_) hstop)
  refine .bind (withTemplate_both h _ _ _ (fun ⟨values, _⟩ => ?_) hstop)
  refine .bind (.of (fun _ _ => .find (h.account? id) (fun old hfound => ?_) hstop) hstop)
  obtain ⟨hold, -⟩ := h.mem_of_find?_account hfound
  refine h.drawing fun n w' v' h' hsame => ?_
  rw [← hsame] at hold
  refine .bind (.ask ?_)
  rw [h'.choose]
  refine .bind (.of (fun secretType _ => ?_) h'.stop)
  extract_lets new stored store store'
  obtain ⟨hid, hasset, hcreated, -⟩ := applyValues_rewritten values secretType old
  have hstore (hsu : ∀ s, new.suFrom = some s →
      ∃ b ∈ v'.store.tables.accounts, b.id = s ∧ b.assetId = old.assetId) :
      Both (store ()) (store' ()) w' v' (Arrived draws clock) (Stopped draws clock) := by
    have hdates : Tables.readAccount clock stored = stored := by
      have hread : Tables.readDate clock new.dateCreated = new.dateCreated := by
        rw [show new.dateCreated = old.dateCreated from hcreated]
        exact congrArg Account.dateCreated (h'.mirror.accountDates old hold)
      simp only [Tables.readAccount, stored, hread, h'.genuine.now n]
    dsimp only [store, store']
    rw [Memory.seamless.update, Relational.seamless.update]
    refine .bind (.guarded (h'.settled.mirror.updateAccount hold hid hasset hcreated
      (hasset ▸ hsu) hdates) (fun r t hm _ => ?_) fun c c' => ⟨.duplicate c c', h'.settled⟩)
    exact .bind (pushIfAsked_both (h'.settled.keep hm) controls _ _ _ fun _ _ h'' =>
      .pure ⟨rfl, h''⟩)
  have hkept (s : String) (hs : old.suFrom = some s) := h'.mirror.suFrom old hold s hs
  split
  · cases hother : new.suFrom with
    | none => exact hstore (by simp [hother])
    | some other =>
      refine .bind (checkSuFrom_both h' other _ _ (fun hfound => hstore ?_) h'.stop)
      rintro s hs
      cases hother.symm.trans hs
      exact hfound
  · next habsent =>
    have hsame := applyValues_suFrom (Bool.eq_false_iff.mpr habsent) secretType old
    exact hstore fun s hs => hkept s (hsame ▸ hs)

theorem mapM_load_both (h : Related draws clock reserved w v) (ids : List String)
    {value : List Bulk.Target → List Bulk.Target → World Memory → World Relational → Prop}
    {error : Error → Error → World Memory → World Relational → Prop}
    (hv : ∀ targets, (∀ t ∈ targets, v.store.tables.hasAsset t.assetId = true) →
      value targets targets w v)
    (he : ∀ e, error e e w v) :
    Both (ids.mapM Bulk.Target.load) (ids.mapM Bulk.Target.load) w v value error := by
  induction ids generalizing value with
  | nil => exact .pure (hv [] (by simp))
  | cons id rest ih =>
    rw [List.mapM_cons, List.mapM_cons]
    refine .bind (.find (h.asset? id) (fun asset hfound => ?_) he)
    refine .find (h.platform? asset.platformId) (fun platform _ => .pure ?_) he
    refine .bind (ih fun targets htargets => .pure (hv _ ?_))
    exact List.forall_mem_cons.mpr ⟨(Relational.hasAsset_of_asset? hfound).1, htargets⟩

theorem bulkCreateAccounts_both (h : Related draws clock [] w v) (payload : Json.Object)
    (policy : Policy) :
    Both (bulkCreateAccounts payload policy) (bulkCreateAccounts payload policy) w v
      (fun es es' w' v' => List.Forall₂ Bulk.Entry.Alike es es' ∧ Related draws clock [] w' v')
      (Stopped draws clock) := by
  have hstop := h.stop
  refine .bind (.of (fun ⟨controls, payload⟩ _ => .bind (.of (fun ids _ => ?_) hstop)) hstop)
  refine .bind (withTemplate_both h _ _ _ (fun ⟨values, templateId⟩ => ?_) hstop)
  refine .bind (.of (fun _ _ => .bind (.of (fun username _ => ?_) hstop)) hstop)
  refine .bind (.of (fun candidate hcandidate => ?_) hstop)
  refine .bind (mapM_load_both h ids (fun targets hassets => ?_) hstop)
  refine h.drawing fun n w' v' h' hsame => ?_
  rw [← hsame] at hassets
  obtain ⟨-, -, -, -, hfrom⟩ := candidateOf_eq_ok hcandidate
  refine .bind ((Bulk.createDrawing_both h'.settled hfrom hassets _).mono ?_ fun _ _ _ _ h => h)
  rintro es es' w'' v'' ⟨hes, h''⟩
  exact .bind (pushIfAsked_both h'' controls _ _ _ fun _ _ h₃ => .pure ⟨hes, h₃⟩)

theorem createTemplate_both (h : Related draws clock [] w v) (payload : Json.Object)
    (org : String) :
    Both (createTemplate payload org) (createTemplate payload org) w v (Arrived draws clock)
      (Stopped draws clock) := by
  refine .bind (.of (fun _ _ => h.drawing fun n w' v' h' _ => ?_) h.stop)
  have hstop := h'.stop
  refine .bind (.of (fun name _ => .bind (.of (fun username _ => ?_) hstop)) hstop)
  refine .bind (.of (fun secretType _ => ?_) hstop)
  extract_lets template
  have hdate : Tables.readTemplate clock template = template := by
    simp only [Tables.readTemplate, template, h'.genuine.now n]
  have hnew := h'.not_spent (.head _) (.inl rfl)
  refine .bind (.rewording (.guarded (h'.mirror.insertTemplate hnew hdate) ?_ ?_))
  · exact fun r t hm _ => .pure ⟨rfl, h'.spend (.inl rfl) hm⟩
  · exact fun c c' => ⟨.same _, h'.settled⟩

theorem createPlatform_both (h : Related draws clock [] w v) {draft : Platform.Draft}
    (hconfig : ∀ c, draft.automation.ansibleConfig = some c → readColumn c.compact = c) :
    Both (createPlatform draft) (createPlatform draft) w v (Arrived draws clock)
      (Stopped draws clock) := by
  unfold createPlatform
  refine .refusing h.stop fun _ => h.drawing fun n w' v' h' _ => ?_
  refine .bind (.of (fun platform hbuilt => ?_) h'.stop)
  obtain ⟨hid, hdate, hnormal, hautomation⟩ := Platform.build_eq_ok hbuilt
  have hinsert : (Store.insertPlatform platform : Relational → _) =
      Relational.guarded (Tables.together (Tables.platformStatements platform)) :=
    funext (Relational.performAll_eq _)
  rw [hinsert]
  have hnew := h'.not_spent (.head _) (.inl hid)
  refine .bind (.rewording (.guarded (h'.mirror.insertPlatform hnew hnormal.names
    (hautomation ▸ hconfig) (hdate ▸ h'.genuine.now n)) ?_ ?_))
  · exact fun r t hm _ => .pure ⟨rfl, h'.spend (.inl hid) hm⟩
  · exact fun c c' => ⟨.same _, h'.settled⟩

theorem deleteTemplate_both (h : Related draws clock [] w v) (id : String) :
    Both (deleteTemplate id) (deleteTemplate id) w v (Arrived draws clock)
      (Stopped draws clock) := by
  have hdeleted := h.keep (h.mirror.deleteTemplate id)
  refine .bind (.ok rfl rfl ?_)
  rw [h.mirror.contains_template]
  split
  · exact .throw (hdeleted.stop _)
  · exact .pure ⟨rfl, hdeleted⟩

theorem deleteAsset_both (h : Related draws clock [] w v) (id : String) :
    Both (deleteAsset id) (deleteAsset id) w v (Arrived draws clock) (Stopped draws clock) := by
  obtain ⟨hfound, hm⟩ := h.mirror.deleteAsset id
  have hdeleted := h.keep hm
  have hw : Run.write (Store.deleteAsset id) w = (.ok (w.store.records.deleteAsset id).1,
    { w with store := { w.store with records := (w.store.records.deleteAsset id).2 } }) := rfl
  have hv : Run.write (Store.deleteAsset id) v = (.ok (v.store.tables.deleteAsset id).1,
    { v with store := { v.store with tables := (v.store.tables.deleteAsset id).2 } }) := rfl
  refine .bind (.ok hw hv ?_)
  rw [hfound]
  split
  · exact .throw (hdeleted.stop _)
  · exact .pure ⟨rfl, hdeleted⟩

end Service

end Custody
