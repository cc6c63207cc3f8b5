import Custody.Proofs.Account.Repeated
import Custody.Proofs.Bulk.Report

/-!
A bulk run again. What a step has created, updated or met holds the candidate's slot on its asset,
under whatever name it was stored, and a held slot stays with its account through all later steps.
So a second run that skips finds every account of the first, each at its place in the list.
-/
namespace Custody.Bulk

open Run Store

variable {σ : Type} [Store σ] {good : σ → Prop} {dated : Time.Instant → Time.Instant}
  {c : Candidate} {policy : Policy} {target : Target} {d : Draw} {s s' t t' : σ} {a : Account}
  {o : Outcome} {e : Entry}

def holder? (c : Candidate) (s : σ) (asset : String) : Option String :=
  (accountBySlot? s asset c.username c.secretType).map (·.id)

/-- The slots that were held are held by the same accounts. -/
def KeepsHolders (c : Candidate) (s s' : σ) : Prop :=
  ∀ asset id, holder? c s asset = some id → holder? c s' asset = some id

theorem KeepsHolders.refl (c : Candidate) (s : σ) : KeepsHolders c s s := fun _ _ h => h

theorem KeepsHolders.trans {s'' : σ} (h : KeepsHolders c s s') (h' : KeepsHolders c s' s'') :
    KeepsHolders c s s'' := fun asset id hid => h' asset id (h asset id hid)

theorem holder?_of_slot (h : accountBySlot? s c.assetId c.username c.secretType = some a) :
    holder? c s c.assetId = some a.id := congrArg (Option.map Account.id) h

theorem keepsHolders_of_holder (hholder : Holder dated s s' a) (hcarried : c.CarriedBy a)
    (hasset : a.assetId = c.assetId)
    (hbefore : ∀ id, holder? c s c.assetId = some id → id = a.id) :
    KeepsHolders c s s' ∧ holder? c s' c.assetId = some a.id := by
  have hslot := hholder.slot
  rw [hasset, hcarried.username, hcarried.secretType] at hslot
  have hholds : holder? c s' c.assetId = some a.id := congrArg (Option.map Account.id) hslot
  refine ⟨fun asset id hid => ?_, hholds⟩
  by_cases heq : asset = c.assetId
  · subst heq
    rw [hbefore id hid, hholds]
  · have hsame := hholder.elsewhere asset c.username c.secretType (hasset ▸ heq)
    exact (congrArg (Option.map Account.id) hsame).trans hid

theorem keepsHolders_of_landed (h : c.Landed dated .slot s s' a o) :
    KeepsHolders c s s' ∧ holder? c s' c.assetId = some a.id := by
  cases h with
  | met hmet => exact ⟨.refl c s, holder?_of_slot ((existing?_slot c s).symm.trans hmet)⟩
  | created id now hnone hholder =>
    have hfree : holder? c s c.assetId = none :=
      congrArg (Option.map Account.id) ((existing?_slot c s).symm.trans hnone)
    exact keepsHolders_of_holder hholder (c.carriedBy_toAccount id now) rfl
      fun id hid => nomatch hfree.symm.trans hid
  | updated old now hmet hasset hholder =>
    have hnew := c.applyTo_rewritten old now
    have hheld := holder?_of_slot ((existing?_slot c s).symm.trans hmet)
    exact keepsHolders_of_holder hholder (c.carriedBy_applyTo old now) (hnew.assetId.trans hasset)
      fun id hid => (Option.some.inj (hid.symm.trans hheld)).trans hnew.id.symm

def Entry.Claims (c : Candidate) (s : σ) (e : Entry) : Prop :=
  e.state ≠ .error → ∃ id, e.account = some id ∧ holder? c s e.asset = some id

structure Entry.Lasting (c : Candidate) (s : σ) (target : Target) (e : Entry) : Prop where
  asset : e.asset = target.assetId
  claims : e.Claims c s
  supported : e.state ≠ .error → c.secretType ∈ target.secretTypes

theorem Entry.Claims.kept (h : e.Claims c s) (hkeeps : KeepsHolders c s s') : e.Claims c s' :=
  fun hstate =>
    let ⟨id, haccount, hheld⟩ := h hstate
    ⟨id, haccount, hkeeps e.asset id hheld⟩

section Steps

variable (hs : Seamless σ) (h : Holding good dated)

include hs h

theorem attempt_claims (c : Candidate) (policy : Policy) (id : String) (now : Time.Instant)
    {w : World σ} (hw : good w.store) :
    Ends (attempt c policy id now) w
      (fun r w' => good w'.store ∧ KeepsHolders c w.store w'.store ∧
        (told c.assetId r).Claims c w'.store)
      fun _ _ => False := by
  unfold attempt
  rw [hs.reconcile]
  refine .caught ((c.reconcile_landed h .slot policy id now hw).mono ?_ ?_)
  · rintro ⟨a, o⟩ w' ⟨-, hw', hlanded⟩
    obtain ⟨hkeeps, hholds⟩ := keepsHolders_of_landed hlanded
    exact ⟨hw', hkeeps, fun _ => ⟨a.id, rfl, hholds⟩⟩
  · rintro e _ rfl
    exact ⟨hw, .refl c _, fun hstate => absurd rfl hstate⟩

theorem createFor_claims (c : Candidate) (policy : Policy) (d : Draw) {w : World σ}
    (hw : good w.store) :
    Ends (createFor c policy d) w
      (fun e w' => good w'.store ∧ KeepsHolders c w.store w'.store ∧ e.Claims c w'.store)
      fun _ _ => False := by
  -- The second attempt goes for the slot of the first.
  rw [createFor_eq]
  refine .bind ((attempt_claims hs h c policy d.id d.now hw).mono ?_ fun _ _ hno => hno)
  rintro first w' ⟨hw', hkeeps, hclaims⟩
  cases first with
  | ok r => exact .bind (.pure (.pure ⟨hw', hkeeps, hclaims⟩))
  | error e =>
    dsimp only
    split
    · refine .bind ((attempt_claims hs h _ policy d.spare d.now hw').mono ?_ fun _ _ hno => hno)
      rintro last w'' ⟨hw'', hkeeps', hclaims'⟩
      exact .pure ⟨hw'', hkeeps.trans hkeeps', hclaims'⟩
    · exact .bind (.pure (.pure ⟨hw', hkeeps, hclaims⟩))

theorem step_claims (c : Candidate) (policy : Policy) (target : Target) (d : Draw) {w : World σ}
    (hw : good w.store) :
    Ends (step c policy target d) w
      (fun e w' => good w'.store ∧ KeepsHolders c w.store w'.store ∧ e.Claims c w'.store)
      fun _ _ => False := by
  unfold step
  split
  · exact createFor_claims hs h (c.forAsset target.assetId) policy d hw
  · exact .pure ⟨hw, .refl c _, fun hstate => absurd rfl hstate⟩

theorem Course.lasting {targets : List (Target × Draw)} {entries : List Entry}
    (hcourse : Course dated c policy s targets entries s') (hgood : good s) :
    good s' ∧ KeepsHolders c s s' ∧
      List.Forall₂ (Entry.Lasting c s') (targets.map Prod.fst) entries := by
  induction hcourse with
  | done s => exact ⟨hgood, .refl c s, .nil⟩
  | @step s s' s'' target d e rest entries hrun htrue _ ih =>
    obtain ⟨hgood', hkeeps, hclaims⟩ :=
      (step_claims hs h c policy target d hgood).of_value (hrun ⟨fun _ => d, 0⟩)
    obtain ⟨hgood'', hkeeps', hrest⟩ := ih hgood'
    refine ⟨hgood'', hkeeps.trans hkeeps', .cons ⟨htrue.asset, hclaims.kept hkeeps', ?_⟩ hrest⟩
    exact fun hstate => not_not.mp fun htype => hstate (htrue.unsupported htype)

end Steps

section Skips

variable (hs : Seamless σ)

include hs

theorem step_skips {id : String} (htype : c.secretType ∈ target.secretTypes)
    (hheld : holder? c s target.assetId = some id) (d : Draw) (supply : Supply) :
    step c .skip target d ⟨s, supply⟩ =
      (.ok (.done target.assetId .skipped id), ⟨s, supply⟩) := by
  obtain ⟨a, ha, rfl⟩ := Option.map_eq_some_iff.mp hheld
  have hrun := attempt_of_reconcile hs
    (reconcile_of_held (c := c.forAsset target.assetId) .skip d.id d.now ha supply)
  rw [step, if_pos htype]
  exact Run.bind_of_ok hrun _

/-- The entry of a target in a second run, against its entry in the first. -/
structure Entry.Repeated (e e' : Entry) : Prop where
  asset : e'.asset = e.asset
  skipped : e.state ≠ .error → ∃ id, e.account = some id ∧ e' = .done e.asset .skipped id

theorem Course.repeated (h : Holding good dated) {targets : List (Target × Draw)}
    {entries entries' : List Entry} (hcourse : Course dated c .skip s targets entries' s')
    (hgood : good s) (hfirst : List.Forall₂ (Entry.Lasting c s) (targets.map Prod.fst) entries) :
    List.Forall₂ Entry.Repeated entries entries' ∧
      ((∀ e ∈ entries, e.state ≠ .error) → s' = s) := by
  -- Under the skip policy every slot that is held is met, and met slots are not written.
  induction hcourse generalizing entries with
  | done s =>
    cases hfirst
    exact ⟨.nil, fun _ => rfl⟩
  | @step s s' s'' target d e' rest entries' hrun htrue _ ih =>
    obtain ⟨hgood', hkeeps, -⟩ :=
      (step_claims hs h c .skip target d hgood).of_value (hrun ⟨fun _ => d, 0⟩)
    cases hfirst with
    | @cons _ e _ entries hlasting hfirst =>
      have hskips (hstate : e.state ≠ .error) :
          s' = s ∧ ∃ id, e.account = some id ∧ e' = .done e.asset .skipped id := by
        obtain ⟨id, haccount, hheld⟩ := hlasting.claims hstate
        rw [hlasting.asset] at hheld ⊢
        have hskip := step_skips hs (hlasting.supported hstate) hheld d ⟨fun _ => d, 0⟩
        cases (hrun ⟨fun _ => d, 0⟩).symm.trans hskip
        exact ⟨rfl, id, haccount, rfl⟩
      obtain ⟨hrest, hsame⟩ := ih hgood' (hfirst.imp fun _ _ hlater =>
        { hlater with claims := hlater.claims.kept hkeeps })
      refine ⟨.cons ⟨htrue.asset.trans hlasting.asset.symm, fun hstate => (hskips hstate).2⟩ hrest,
        fun hclean => ?_⟩
      obtain ⟨hstate, hclean⟩ := List.forall_mem_cons.mp hclean
      rw [hsame hclean, (hskips hstate).1]

end Skips

/-- A bulk, and after it the same bulk under the skip policy, with whatever it draws: each target
that the first run reports as created, updated or skipped the second reports as skipped, with the
same account, and where nothing had failed the store stays as the first run has left it. -/
def Rerun (dated : Time.Instant → Time.Instant) (c : Candidate) (targets : List Target)
    (policy : Policy) (w : World σ) (supply : Supply) : Prop :=
  ∃ entries w' entries' w'',
    createDrawing c targets policy w = (.ok (ordered entries), w') ∧
    Course dated c policy w.store (targets.zip (upcoming w.supply targets.length)) entries
      w'.store ∧
    createDrawing c targets .skip { w' with supply := supply } = (.ok (ordered entries'), w'') ∧
    Course dated c .skip w'.store (targets.zip (upcoming supply targets.length)) entries'
      w''.store ∧
    List.Forall₂ Entry.Repeated entries entries' ∧
    ((∀ e ∈ entries, e.state ≠ .error) → w''.store = w'.store)

theorem map_fst_zip_upcoming (targets : List Target) (supply : Supply) :
    (targets.zip (upcoming supply targets.length)).map Prod.fst = targets :=
  List.map_fst_zip (by simp [upcoming])

theorem rerun_of_holding (hs : Seamless σ) (h : Holding good dated) (c : Candidate)
    (targets : List Target) (hpolicy : policy ≠ .error) (w : World σ) (hgood : good w.store)
    (supply : Supply) : Rerun dated c targets policy w supply := by
  obtain ⟨entries, t, hcourse, -, -, hrun⟩ :=
    reported_of_bookkeeping hs h.bookkeeping c targets policy w hgood
  obtain ⟨hgood', -, hlasting⟩ := hcourse.lasting hs h hgood
  obtain ⟨entries', t', hcourse', -, -, hrun'⟩ :=
    reported_of_bookkeeping hs h.bookkeeping c targets .skip ⟨t, supply⟩ hgood'
  rw [if_neg fun hfailed => hpolicy hfailed.1] at hrun
  rw [if_neg fun hfailed => nomatch hfailed.1] at hrun'
  rw [map_fst_zip_upcoming] at hlasting
  obtain ⟨hrepeated, hsame⟩ := hcourse'.repeated hs h hgood' (by rwa [map_fst_zip_upcoming])
  exact ⟨entries, _, entries', _, hrun, hcourse, hrun', hcourse', hrepeated, hsame⟩

/-- Running a bulk again under the skip policy is safe on every store that keeps its records apart
by their ids, for every candidate and list of targets. -/
theorem createDrawing_rerun (c : Candidate) (targets : List Target) (policy : Policy)
    (hpolicy : policy ≠ .error) (supply : Supply) :
    (∀ w : World Memory, w.store.records.Filed → Rerun id c targets policy w supply) ∧
      ∀ w : World Relational, w.store.tables.Keys →
        Rerun (Tables.readDate w.store.clock) c targets policy w supply := by
  constructor
  · intro w hfiled
    exact rerun_of_holding Memory.seamless Memory.holding c targets hpolicy w hfiled supply
  · intro w hkeys
    exact rerun_of_holding Relational.seamless (Relational.holding w.store.clock) c targets hpolicy
      w ⟨hkeys, rfl⟩ supply

theorem createDrawing_rerun_repeated :
    let w : World Memory :=
      ⟨hostCalls.foldl (fun m c => (c.run m).2) Memory.empty, countingSupply⟩
    let v : World Relational :=
      ⟨hostCalls.foldl (fun s c => (c.run s).2) (Relational.empty ⟨0, 0⟩), countingSupply⟩
    Rerun id rootCandidate repeatedTargets .update w countingSupply ∧
      Rerun (Tables.readDate v.store.clock) rootCandidate repeatedTargets .update v
        countingSupply := by
  have hm := (Reachable.start : Reachable Memory.empty [] _).calls hostCalls
  have hs := (Reachable.start : Reachable (Relational.empty ⟨0, 0⟩) [] _).calls hostCalls
  have h := createDrawing_rerun rootCandidate repeatedTargets .update (by decide) countingSupply
  exact ⟨h.1 _ (filed_of_reachable hm), h.2 _ (keys_of_reachable hs)⟩

end Custody.Bulk
