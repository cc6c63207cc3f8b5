import Mathlib.Data.List.Pairwise
import Custody.Proofs.Bulk.Report
import Custody.Proofs.Store.Plots

/-!
The order of the targets does not matter to a bulk. What a step tells and puts is settled by the
store before the bulk, since the steps for other targets put nothing on its plot, and accounts on
different plots may be put in any order.
-/
namespace Custody.Bulk

open Store

def plot (td : Target × Draw) : Plot := ⟨td.1.assetId, [td.2.id, td.2.spare]⟩

instance : Std.Symm fun td td' => (plot td).Apart (plot td') := ⟨fun _ _ h => h.symm⟩

/-- Every target is an asset of its own and has its own new ids, to which the candidate cannot refer
yet. -/
structure Separate (c : Candidate) (targets : List (Target × Draw)) : Prop where
  apart : targets.Pairwise fun td td' => (plot td).Apart (plot td')
  fresh : ∀ td ∈ targets, ∀ id ∈ (plot td).ids, c.suFrom ≠ some id

section Planned

variable {σ α β : Type} [Store σ] {good : σ → Prop} {dated : Time.Instant → Time.Instant}
  {put : Account → σ → σ} {p : Plot} {suFrom : Option String} {s : σ}

/-- On every store that looks from the plot as this one, the step comes to the value and puts the
account on the plot, if there is one. -/
def Planned (good : σ → Prop) (put : Account → σ → σ) (p : Plot) (suFrom : Option String) (s : σ)
    (f : Run σ α) (value : α) (change : Option Account) : Prop :=
  ∀ s', good s' → p.Alike suFrom s s' →
    good (putAll put change.toList s') ∧ (∀ a, change = some a → p.Takes s' a) ∧
      ∀ supply, f ⟨s', supply⟩ = (.ok value, ⟨putAll put change.toList s', supply⟩)

theorem Planned.idle {f : Run σ α} {value : α}
    (h : ∀ s', good s' → p.Alike suFrom s s' →
      ∀ supply, f ⟨s', supply⟩ = (.ok value, ⟨s', supply⟩)) :
    Planned good put p suFrom s f value none :=
  fun s' hs' halike => ⟨hs', (fun _ h => nomatch h), h s' hs' halike⟩

theorem Planned.told {f : Run σ α} {value : α} {change : Option Account} {g : α → Run σ β}
    {value' : β} (h : Planned good put p suFrom s f value change)
    (hg : ∀ w, g value w = (.ok value', w)) :
    Planned good put p suFrom s (f >>= g) value' change := by
  intro s' hs' halike
  obtain ⟨hgood, htakes, hrun⟩ := h s' hs' halike
  exact ⟨hgood, htakes, fun supply => (Run.bind_of_ok (hrun supply) _).trans (hg _)⟩

theorem Planned.bind {f : Run σ α} {value : α} {g : α → Run σ β} {value' : β}
    {change : Option Account} (h : Planned good put p suFrom s f value none)
    (h' : Planned good put p suFrom s (g value) value' change) :
    Planned good put p suFrom s (f >>= g) value' change := by
  intro s' hs' halike
  obtain ⟨-, -, hrun⟩ := h s' hs' halike
  obtain ⟨hgood, htakes, hrun'⟩ := h' s' hs' halike
  exact ⟨hgood, htakes, fun supply => (Run.bind_of_ok (hrun supply) _).trans (hrun' supply)⟩

variable (hp : Plotted good dated put)

include hp

theorem attempt_created {c : Candidate} {policy : Policy} {id : String} {now : Time.Instant}
    (hasset : c.assetId = p.asset) (hid : id ∈ p.ids)
    (hfree : accountBySlot? s c.assetId c.username c.secretType = none)
    (hins : (insertAccount (c.toAccount id now) s).1 = .ok ()) :
    Planned good put p c.suFrom s (attempt c policy id now) (.ok (c.toAccount id now, .created))
      (some (c.toAccount id now)) := by
  intro s' hs' halike
  have hins' := hp.insert_of_ok ((halike.insert _ hasset hid rfl).trans hins)
  obtain ⟨hgood, hnew, -⟩ := hp.bookkeeping.insert hs' hins'
  refine ⟨hgood, ?_, fun supply => attempt_of_reconcile hp.seamless ?_⟩
  · rintro a ⟨⟩
    exact ⟨hasset, .inl ⟨hid, hnew⟩⟩
  · rw [hasset, ← halike.slot, ← hasset] at hfree
    exact reconcile_of_free hfree hins' supply

theorem held_alike {c : Candidate} {old : Account} (now : Time.Instant)
    (hasset : c.assetId = p.asset)
    (hheld : accountBySlot? s c.assetId c.username c.secretType = some old) {s' : σ}
    (hs' : good s') (halike : p.Alike c.suFrom s s') :
    accountBySlot? s' c.assetId c.username c.secretType = some old ∧
      account? s' old.id = some old ∧ old.assetId = p.asset ∧
      (updateAccount (c.applyTo old now) s').1 = (updateAccount (c.applyTo old now) s).1 := by
  obtain ⟨hid, hasset', -, -, -, hsu⟩ := c.applyTo_rewritten old now
  have hheld' : accountBySlot? s' c.assetId c.username c.secretType = some old := by
    rw [hasset, halike.slot, ← hasset, hheld]
  obtain ⟨hslot, hstored⟩ := hp.bookkeeping.slot hs' hheld'
  have hold : old.assetId = p.asset := (Account.hasSlot_iff.mp hslot).1.trans hasset
  exact ⟨hheld', hstored, hold,
    halike.update _ _ old _ (hasset ▸ hheld) hid (hasset'.trans hold) hsu⟩

theorem attempt_updated {c : Candidate} {id : String} {now : Time.Instant} {old : Account}
    (hasset : c.assetId = p.asset)
    (hheld : accountBySlot? s c.assetId c.username c.secretType = some old)
    (hupd : (updateAccount (c.applyTo old now) s).1 = .ok ()) :
    Planned good put p c.suFrom s (attempt c .update id now) (.ok (c.applyTo old now, .updated))
      (some (c.applyTo old now)) := by
  intro s' hs' halike
  obtain ⟨hheld', hstored, hold, hsame⟩ := held_alike hp now hasset hheld hs' halike
  obtain ⟨hid, hasset', hdate, -⟩ := c.applyTo_rewritten old now
  have hupd' := hp.update_of_ok hs' (hsame.trans hupd)
  obtain ⟨hgood, -⟩ := hp.bookkeeping.update hs' (hid ▸ hstored) hasset' hdate hupd'
  refine ⟨hgood, ?_, fun supply => attempt_of_reconcile hp.seamless ?_⟩
  · rintro a ⟨⟩
    exact ⟨hasset'.trans hold, .inr ⟨old, hid ▸ hstored, hold⟩⟩
  · rw [reconcile_of_held _ _ _ hheld', hupd']
    rfl

theorem attempt_planned (c : Candidate) (policy : Policy) {id : String} (now : Time.Instant)
    (hasset : c.assetId = p.asset) (hid : id ∈ p.ids) (s : σ) :
    ∃ r change, (∀ e, r = .error e → change = none) ∧
      Planned good put p c.suFrom s (attempt c policy id now) r change := by
  cases hslot : accountBySlot? s c.assetId c.username c.secretType with
  | none =>
    cases hins : (insertAccount (c.toAccount id now) s).1 with
    | ok _ =>
      refine ⟨.ok _, _, (fun _ h => nomatch h), attempt_created hp hasset hid hslot hins⟩
    | error e =>
      refine ⟨.error e, none, fun _ _ => rfl, .idle fun s' hs' halike supply => ?_⟩
      have hins' := hp.insert_of_error ((halike.insert _ hasset hid rfl).trans hins)
      rw [hasset, ← halike.slot, ← hasset] at hslot
      exact attempt_of_reconcile hp.seamless (reconcile_of_free hslot hins' supply)
  | some old =>
    have hrun {s' : σ} (hs' : good s') (halike : p.Alike c.suFrom s s') :=
      reconcile_of_held policy id now (held_alike hp now hasset hslot hs' halike).1
    cases policy with
    | skip =>
      exact ⟨_, none, fun _ _ => rfl, .idle fun s' hs' halike supply =>
        attempt_of_reconcile hp.seamless (hrun hs' halike supply)⟩
    | error =>
      exact ⟨_, none, fun _ _ => rfl, .idle fun s' hs' halike supply =>
        attempt_of_reconcile hp.seamless (hrun hs' halike supply)⟩
    | update =>
      cases hupd : (updateAccount (c.applyTo old now) s).1 with
      | ok _ => exact ⟨.ok _, _, (fun _ h => nomatch h), attempt_updated hp hasset hslot hupd⟩
      | error e =>
        refine ⟨.error e, none, fun _ _ => rfl, .idle fun s' hs' halike supply => ?_⟩
        obtain ⟨-, -, -, hsame⟩ := held_alike hp now hasset hslot hs' halike
        have hupd' := hp.update_of_error (hsame.trans hupd)
        have hfailed := hrun hs' halike supply
        rw [hupd'] at hfailed
        exact attempt_of_reconcile hp.seamless hfailed

theorem createFor_planned (c : Candidate) (policy : Policy) (td : Target × Draw) (s : σ) :
    ∃ r change, Planned good put (plot td) c.suFrom s
      (createFor (c.forAsset td.1.assetId) policy td.2) (told td.1.assetId r) change := by
  obtain ⟨r, change, hfailed, hfirst⟩ := attempt_planned hp (c.forAsset td.1.assetId) policy
    td.2.now (rfl : _ = (plot td).asset) (List.mem_cons_self : td.2.id ∈ (plot td).ids) s
  rw [createFor_eq]
  cases r with
  | ok done => exact ⟨.ok done, change, hfirst.told fun _ => rfl⟩
  | error e =>
    by_cases hdup : e.isDuplicate
    · obtain rfl := hfailed e rfl
      obtain ⟨r', change', -, hsecond⟩ := attempt_planned hp
        { c.forAsset td.1.assetId with name := c.name ++ "_" ++ td.2.token } policy td.2.now
        (rfl : _ = (plot td).asset) (List.mem_cons_of_mem _ List.mem_cons_self) s
      refine ⟨r', change', hfirst.bind ?_⟩
      dsimp only
      rw [if_pos hdup]
      exact hsecond.told fun _ => rfl
    · refine ⟨.error e, change, hfirst.told fun _ => ?_⟩
      dsimp only
      rw [if_neg hdup]
      rfl

theorem step_planned (c : Candidate) (policy : Policy) (td : Target × Draw) (s : σ) :
    ∃ e change, e.asset = td.1.assetId ∧
      Planned good put (plot td) c.suFrom s (step c policy td.1 td.2) e change := by
  unfold step
  split
  · obtain ⟨r, change, hplan⟩ := createFor_planned hp c policy td s
    exact ⟨_, change, told_asset _ r, hplan⟩
  · exact ⟨_, none, rfl, .idle fun _ _ _ _ => rfl⟩

theorem mapM_planned {c : Candidate} {policy : Policy} {s : σ} {entry : Target × Draw → Entry}
    {change : Target × Draw → Option Account}
    (hplan : ∀ td, Planned good put (plot td) c.suFrom s (step c policy td.1 td.2) (entry td)
      (change td))
    {targets : List (Target × Draw)} (hsep : Separate c targets) {s' : σ} (hs' : good s')
    (halike : ∀ td ∈ targets, (plot td).Alike c.suFrom s s') :
    good (putAll put (targets.filterMap change) s') ∧ ∀ supply,
      (targets.mapM fun (target, d) => step c policy target d) ⟨s', supply⟩ =
        (.ok (targets.map entry), ⟨putAll put (targets.filterMap change) s', supply⟩) := by
  induction targets generalizing s' with
  | nil => exact ⟨hs', fun _ => rfl⟩
  | cons td rest ih =>
    obtain ⟨hapart, hrest⟩ := List.pairwise_cons.mp hsep.apart
    obtain ⟨hgood, htakes, hrun⟩ := hplan td s' hs' (halike td (.head rest))
    have hput : putAll put ((td :: rest).filterMap change) s' =
        putAll put (rest.filterMap change) (putAll put (change td).toList s') := by
      cases hc : change td with
      | none => rw [List.filterMap_cons_none hc]; rfl
      | some a => rw [List.filterMap_cons_some hc]; rfl
    have halike' : ∀ td' ∈ rest,
        (plot td').Alike c.suFrom s (putAll put (change td).toList s') := by
      intro td' htd'
      have hbefore := halike td' (.tail td htd')
      cases hc : change td with
      | none => exact hbefore
      | some a =>
        exact hbefore.trans <|
          hp.elsewhere hs' (htakes a hc) (hapart td' htd') (hsep.fresh td (.head rest))
    obtain ⟨hgood', hrun'⟩ := ih ⟨hrest, fun td' h => hsep.fresh td' (.tail td h)⟩ hgood halike'
    rw [hput]
    refine ⟨hgood', fun supply => ?_⟩
    rw [List.mapM_cons]
    refine (Run.bind_of_ok (hrun supply) _).trans ?_
    exact Run.bind_of_ok (hrun' supply) _

omit hp in
theorem eq_of_id_eq {c : Candidate} {policy : Policy} {entry : Target × Draw → Entry}
    {change : Target × Draw → Option Account}
    (hplan : ∀ td, Planned good put (plot td) c.suFrom s (step c policy td.1 td.2) (entry td)
      (change td))
    {targets : List (Target × Draw)} (hsep : Separate c targets) (hs : good s) :
    ∀ a ∈ targets.filterMap change, ∀ b ∈ targets.filterMap change, a.id = b.id → a = b := by
  -- Two accounts of one id would stand on one plot, and a plot gets one account.
  intro a ha b hb hid
  obtain ⟨td, htd, ha⟩ := List.mem_filterMap.mp ha
  obtain ⟨td', htd', hb⟩ := List.mem_filterMap.mp hb
  by_cases heq : td = td'
  · exact Option.some.inj (ha.symm.trans (heq ▸ hb))
  · have hapart := hsep.apart.forall htd htd' heq
    obtain ⟨-, htakes, -⟩ := hplan td s hs (.refl _ _ s)
    obtain ⟨-, htakes', -⟩ := hplan td' s hs (.refl _ _ s)
    exact absurd hid ((htakes a ha).id_ne (htakes' b hb) hapart)

end Planned

section Orders

variable {σ : Type} [Store σ] {good : σ → Prop} {dated : Time.Instant → Time.Instant}
  {put : Account → σ → σ} {same same' : σ → σ → Prop} {c : Candidate} {policy : Policy}
  {targets targets' : List (Target × Draw)} {w : World σ}

def SameReport : Except Error (List Entry) → Except Error (List Entry) → Prop
  | .ok entries, .ok entries' => entries.Perm entries'
  | .error (.bulkFailed failed), .error (.bulkFailed failed') => failed.Perm failed'
  | _, _ => False

theorem SameReport.isOk {r r' : Except Error (List Entry)} (h : SameReport r r') :
    r.isOk = r'.isOk := by
  unfold SameReport at h
  split at h
  · rfl
  · rfl
  · exact h.elim

theorem ordered_perm (entries : List Entry) : (ordered entries).Perm entries :=
  arrange_eq entries ▸ List.mergeSort_perm _ _

theorem conclude_perm (policy : Policy) {entries entries' : List Entry}
    (hperm : entries.Perm entries') :
    SameReport (conclude policy entries) (conclude policy entries') := by
  have hfailed := hperm.filter (·.state = .error)
  have hempty : entries.filter (·.state = .error) = [] ↔
      entries'.filter (·.state = .error) = [] := by
    rw [← List.length_eq_zero_iff, ← List.length_eq_zero_iff, hfailed.length_eq]
  simp only [conclude_eq, ne_eq, hempty]
  split
  · exact hfailed
  · exact (ordered_perm entries).trans (hperm.trans (ordered_perm entries').symm)

/-- Over the targets in one and in the other order a bulk ends in stores that are the same, has the
same entry for each target and reports the same entries, or fails both times. -/
def Orderless (same : σ → σ → Prop) (c : Candidate) (policy : Policy)
    (targets targets' : List (Target × Draw)) (w : World σ) : Prop :=
  ∃ (entry : Target × Draw → Entry) (s s' : σ), same s s' ∧
    (∀ td, (entry td).asset = td.1.assetId) ∧
    create c targets policy w = (conclude policy (targets.map entry), ⟨s, w.supply⟩) ∧
    create c targets' policy w = (conclude policy (targets'.map entry), ⟨s', w.supply⟩) ∧
    SameReport (create c targets policy w).1 (create c targets' policy w).1 ∧
    (create c targets policy w).1.isOk = (create c targets' policy w).1.isOk

theorem Separate.perm (h : Separate c targets) (hperm : targets.Perm targets') :
    Separate c targets' where
  apart := hperm.pairwise h.apart fun h => h.symm
  fresh td htd := h.fresh td (hperm.mem_iff.mpr htd)

theorem Orderless.mono (h : Orderless same c policy targets targets' w)
    (hsame : ∀ s s', same s s' → same' s s') : Orderless same' c policy targets targets' w := by
  obtain ⟨entry, s, s', hs, hrest⟩ := h
  exact ⟨entry, s, s', hsame s s' hs, hrest⟩

theorem orderless_of_plotted (hp : Plotted good dated put) (hx : Exchange same put)
    (policy : Policy) (hperm : targets.Perm targets') (hsep : Separate c targets)
    (hs : good w.store) :
    Orderless (fun s s' => good s ∧ same s s') c policy targets targets' w := by
  obtain ⟨entry, hsteps⟩ :=
    Classical.skolem.mp fun td => step_planned hp c policy td w.store
  obtain ⟨change, hsteps⟩ := Classical.skolem.mp hsteps
  have hplan := fun td => (hsteps td).2
  have hcreate {ts : List (Target × Draw)} (hts : Separate c ts) :
      good (putAll put (ts.filterMap change) w.store) ∧
        create c ts policy w = (conclude policy (ts.map entry),
          ⟨putAll put (ts.filterMap change) w.store, w.supply⟩) := by
    obtain ⟨hgood, hrun⟩ := mapM_planned hp hplan hts hs fun td _ => .refl _ _ w.store
    exact ⟨hgood, Run.bind_of_ok (hrun w.supply) _⟩
  obtain ⟨hgood, hrun⟩ := hcreate hsep
  obtain ⟨-, hrun'⟩ := hcreate (hsep.perm hperm)
  have hsame := hx.putAll_perm (hperm.filterMap change) (eq_of_id_eq hplan hsep hs) w.store
  have hreport := conclude_perm policy (hperm.map entry)
  refine ⟨entry, _, _, ⟨hgood, hsame⟩, fun td => (hsteps td).1, hrun, hrun', ?_, ?_⟩
  · rw [hrun, hrun']
    exact hreport
  · rw [hrun, hrun']
    exact hreport.isOk

end Orders

/-- The order of the targets of a bulk cannot be told from what it leaves and reports. -/
theorem create_orderless (c : Candidate) (policy : Policy)
    {targets targets' : List (Target × Draw)} (hperm : targets.Perm targets')
    (hsep : Separate c targets) :
    (∀ w : World Memory, w.store.records.Filed → Orderless Eq c policy targets targets' w) ∧
      ∀ w : World Relational, w.store.tables.Valid →
        Orderless (fun s s' => Relational.Reordered s s' ∧ Relational.Indistinct s s') c policy
          targets targets' w := by
  refine ⟨fun w hs => ?_, fun w hs => ?_⟩
  · have h := orderless_of_plotted Memory.plotted Memory.exchange policy hperm hsep hs
    exact h.mono fun _ _ hsame => hsame.2
  · have hkept := Relational.kept_of_valid hs
    have h := orderless_of_plotted (Relational.plotted w.store.clock) Relational.exchange policy
      hperm hsep hkept
    exact h.mono fun s s' hsame => ⟨hsame.2, hsame.2.indistinct hsame.1.1.1⟩

def pairCalls : List Call :=
  hostCalls ++
    [.insertAsset ⟨"db", "db", "10.0.0.2", "linux", .host, .linux, none, true, "", [], [], [],
        ⟨0, 0⟩⟩,
      .insertAccount ⟨"other", "web", "root", "admin", none, .password, .manual, none, 1, false,
        true, "", none, ⟨0, 0⟩, ⟨0, 0⟩⟩]

def pairTargets : List (Target × Draw) :=
  [(⟨"web", .ofList [.password]⟩, ⟨"first", "second", "token", ⟨0, 0⟩⟩),
    (⟨"db", .ofList [.password]⟩, ⟨"third", "fourth", "token", ⟨0, 0⟩⟩)]

theorem create_orderless_pair :
    let w : World Memory := ⟨pairCalls.foldl (fun m c => (c.run m).2) Memory.empty, countingSupply⟩
    let v : World Relational :=
      ⟨pairCalls.foldl (fun s c => (c.run s).2) (Relational.empty ⟨0, 0⟩), countingSupply⟩
    (Orderless Eq rootCandidate .skip pairTargets pairTargets.reverse w ∧
      (create rootCandidate pairTargets .skip w).2.store.records.accounts.values.map (·.name) =
        ["root", "root_token", "root"]) ∧
    Orderless (fun s s' => Relational.Reordered s s' ∧ Relational.Indistinct s s') rootCandidate
        .skip pairTargets pairTargets.reverse v ∧
      (create rootCandidate pairTargets .skip v).2.store.tables.accounts.map (·.name) =
        ["root", "root_token", "root"] ∧
      (create rootCandidate pairTargets.reverse .skip v).2.store.tables.accounts.map (·.name) =
        ["root", "root", "root_token"] := by
  have hm := (Reachable.start : Reachable Memory.empty [] _).calls pairCalls
  have hs := (Reachable.start : Reachable (Relational.empty ⟨0, 0⟩) [] _).calls pairCalls
  have hsep : Separate rootCandidate pairTargets := by
    exact ⟨List.pairwise_pair.mpr ⟨by decide, by decide⟩, by decide⟩
  have horders := create_orderless rootCandidate .skip (List.reverse_perm _).symm hsep
  exact ⟨⟨horders.1 _ (filed_of_reachable hm), by decide +kernel⟩,
    horders.2 _ (Tables.valid_of_reachable hs), by decide +kernel, by decide +kernel⟩

end Custody.Bulk
