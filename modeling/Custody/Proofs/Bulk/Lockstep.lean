import Custody.Bulk
import Custody.Proofs.Bulk.Report
import Custody.Proofs.Store.Related
import Mathlib.Data.List.Forall2

/-!
A candidate and a bulk of candidates on both stores. They come to the same; where the stores refuse
a duplicate they may call the constraint by different names.
-/
namespace Custody

open Run Store

/-- The same entry, or entries that differ in how a refused duplicate is called. -/
inductive Bulk.Entry.Alike : Bulk.Entry → Bulk.Entry → Prop
  | same (e : Bulk.Entry) : Alike e e
  | duplicate (asset c c' : String) : Alike (.failed asset (Error.duplicate c).message)
    (.failed asset (Error.duplicate c').message)

/-- The same error, or errors that differ in how a refused duplicate is called. -/
inductive Error.Alike : Error → Error → Prop
  | same (e : Error) : Alike e e
  | duplicate (c c' : String) : Alike (.duplicate c) (.duplicate c')
  | bulkFailed {entries entries' : List Bulk.Entry} :
    List.Forall₂ Bulk.Entry.Alike entries entries' →
    Alike (.bulkFailed entries) (.bulkFailed entries')

theorem Error.Alike.isDuplicate {e e' : Error} (h : e.Alike e') :
    e.isDuplicate = e'.isDuplicate := by
  cases h <;> rfl

theorem Error.Alike.failed {e e' : Error} (h : e.Alike e') (asset : String) :
    (Bulk.Entry.failed asset e.message).Alike (.failed asset e'.message) := by
  cases h with
  | same e => exact .same _
  | duplicate c c' => exact .duplicate asset c c'
  | bulkFailed hentries =>
    have hmessage : (Error.bulkFailed _).message = (Error.bulkFailed _).message :=
      congrArg (fun n : Nat => "bulk creation failed for " ++ toString n ++ " asset(s)")
        hentries.length_eq
    rw [hmessage]
    exact .same _

variable {draws : Nat → Draw} {clock : Time.Instant} {reserved : List Nat} {n : Nat}
  {w : World Memory} {v : World Relational}

theorem Run.Both.guarded {R : Records → Tables → Prop} {f : Records → Except Error Records}
    {g : Tables.Statement} {value : Unit → Unit → World Memory → World Relational → Prop}
    {error : Error → Error → World Memory → World Relational → Prop}
    (h : Agree R (f w.store.records) (g v.store.tables))
    (hv : ∀ r t, R r t → g v.store.tables = .ok t →
      value () () { w with store := { w.store with records := r } }
        { v with store := { v.store with tables := t } })
    (he : ∀ c c', error (.duplicate c) (.duplicate c') w v) :
    Both (Run.write (Memory.guarded f)) (Run.write (Relational.guarded g)) w v value error := by
  cases hf : f w.store.records with
  | ok r =>
    cases hg : g v.store.tables with
    | ok t =>
      rw [hf, hg] at h
      cases h with
      | ok h =>
        exact .ok (write_of_eq (Memory.guarded_of_ok hf))
          (write_of_eq (Relational.guarded_of_ok hg)) (hv r t h hg)
    | error e => rw [hf, hg] at h; cases h
  | error e =>
    cases hg : g v.store.tables with
    | ok t => rw [hf, hg] at h; cases h
    | error e' =>
      rw [hf, hg] at h
      cases h with
      | refused c c' =>
        exact .error (write_of_eq (Memory.guarded_of_error hf))
          (write_of_eq (Relational.guarded_of_error hg)) (he c c')

namespace Candidate

def Refused (w : World Memory) (v : World Relational) (e e' : Error) (w' : World Memory)
    (v' : World Relational) : Prop := e.Alike e' ∧ w' = w ∧ v' = v

def Settled (draws : Nat → Draw) (clock : Time.Instant) (reserved : List Nat)
    (v : World Relational) (w' : World Memory) (v' : World Relational) : Prop :=
  Related draws clock reserved w' v' ∧ v'.store.tables.assets = v.store.tables.assets

theorem reconcile_both (h : Related draws clock (n :: reserved) w v) {c : Candidate}
    (hasset : v.store.tables.hasAsset c.assetId = true)
    (hsu : ∀ s, c.suFrom = some s →
      ∃ b ∈ v.store.tables.accounts, b.id = s ∧ b.assetId = c.assetId)
    (lookup : Lookup) (policy : Policy) {id : String} (hid : (draws n).Gives id) :
    Both (c.reconcile lookup policy id (draws n).now) (c.reconcile lookup policy id (draws n).now)
      w v (fun a b w' v' => a = b ∧ Settled draws clock reserved v w' v') (Refused w v) := by
  have hnow := h.genuine.now n
  have hnew := h.not_spent (.head reserved) hid
  unfold reconcile
  refine .bind (.ask ?_)
  rw [h.existing?]
  cases hfound : c.existing? lookup v.store with
  | none =>
    have hdates : Tables.readAccount clock (c.toAccount id (draws n).now) =
        c.toAccount id (draws n).now := by
      simp only [Tables.readAccount, toAccount, hnow]
    refine .bind (.guarded (h.mirror.insertAccount hnew hasset hsu hdates) ?_ ?_)
    · intro r t hm ht
      obtain ⟨-, -, -, -, rfl⟩ := Tables.insertAccount_eq_ok_iff.mp ht
      exact .pure ⟨rfl, h.spend hid hm, rfl⟩
    · exact fun c c' => ⟨.duplicate c c', rfl, rfl⟩
  | some a =>
    obtain ⟨hmem, hsame⟩ := h.mem_of_existing? hfound
    have hfree := h.sublist (List.sublist_cons_self n reserved)
    cases policy with
    | skip => exact .pure ⟨rfl, hfree, rfl⟩
    | error => exact .throw ⟨.same _, rfl, rfl⟩
    | update =>
      obtain ⟨hkid, hkasset, hkdate, -⟩ := c.applyTo_rewritten a (draws n).now
      have hkeptsu (s : String) (hs : (c.applyTo a (draws n).now).suFrom = some s) :
          ∃ b ∈ v.store.tables.accounts, b.id = s ∧
            b.assetId = (c.applyTo a (draws n).now).assetId := by
        rw [(c.applyTo_overwrites a (draws n).now).suFrom] at hs
        rw [hkasset]
        rcases Option.or_eq_some_iff.mp hs with hs | ⟨-, hs⟩
        · exact hsame ▸ hsu s hs
        · exact h.mirror.suFrom a hmem s hs
      have hdates : Tables.readAccount clock (c.applyTo a (draws n).now) =
          c.applyTo a (draws n).now := by
        have hold : a.redated (Tables.readDate clock) = a := h.mirror.accountDates a hmem
        have hnew := c.applyTo_redated a (draws n).now (Tables.readDate clock)
        rw [hold, hnow] at hnew
        exact hnew
      refine .bind (.guarded (hfree.mirror.updateAccount hmem hkid hkasset hkdate hkeptsu hdates)
        ?_ ?_)
      · intro r t hm ht
        obtain ⟨row, -, -, -, rfl⟩ := Tables.updateAccount_eq_ok_iff.mp ht
        exact .pure ⟨rfl, hfree.keep hm, rfl⟩
      · exact fun c c' => ⟨.duplicate c c', rfl, rfl⟩

end Candidate

namespace Bulk

open Candidate

inductive Attempted (draws : Nat → Draw) (clock : Time.Instant) (reserved : List Nat)
    (w : World Memory) (v : World Relational) : Except Error (Account × Outcome) →
    Except Error (Account × Outcome) → World Memory → World Relational → Prop
  | ok {w' : World Memory} {v' : World Relational} (done : Account × Outcome) :
    Settled draws clock reserved v w' v' →
    Attempted draws clock reserved w v (.ok done) (.ok done) w' v'
  | error {e e' : Error} : e.Alike e' →
    Attempted draws clock reserved w v (.error e) (.error e') w v

section Steps

variable (h : Related draws clock (n :: reserved) w v) {c : Candidate}
  (hasset : v.store.tables.hasAsset c.assetId = true) (hsu : c.suFrom = none) (policy : Policy)

include h hasset hsu

theorem attempt_both {id : String} (hid : (draws n).Gives id) :
    Both (attempt c policy id (draws n).now) (attempt c policy id (draws n).now) w v
      (Attempted draws clock reserved w v) fun _ _ _ _ => False := by
  unfold attempt
  rw [Memory.seamless.reconcile, Relational.seamless.reconcile]
  refine .caught ((reconcile_both h hasset (fun s hs => ?_) .slot policy hid).mono ?_ ?_)
  · rw [hsu] at hs
    cases hs
  · rintro a b w' v' ⟨rfl, hsettled⟩
    exact .ok a hsettled
  · rintro e e' w' v' ⟨halike, rfl, rfl⟩
    exact .error halike

theorem createFor_both :
    Both (createFor c policy (draws n)) (createFor c policy (draws n)) w v
      (fun e e' w' v' => e.Alike e' ∧ Settled draws clock reserved v w' v')
      fun _ _ _ _ => False := by
  simp only [createFor, Naming.suffixed_eq]
  refine .bind ((attempt_both h hasset hsu policy (.inl rfl)).mono ?_ fun _ _ _ _ => id)
  intro r r' w' v' hfirst
  cases hfirst with
  | ok done hsettled => exact .pure ⟨.same _, hsettled⟩
  | error halike =>
    dsimp only
    rw [halike.isDuplicate]
    split
    · have hsecond := attempt_both h
        (c := { c with name := c.name ++ "_" ++ (draws n).token }) hasset hsu policy
        (.inr rfl)
      refine .bind (hsecond.mono (fun r r' w' v' hsecond => ?_) fun _ _ _ _ => id)
      cases hsecond with
      | ok done hsettled => exact .pure ⟨.same _, hsettled⟩
      | error halike =>
        exact .pure ⟨halike.failed _, h.sublist (List.sublist_cons_self n reserved), rfl⟩
    · exact .pure ⟨halike.failed _, h.sublist (List.sublist_cons_self n reserved), rfl⟩

end Steps

theorem step_both (h : Related draws clock (n :: reserved) w v) {c : Candidate} {target : Target}
    (hasset : v.store.tables.hasAsset target.assetId = true) (hsu : c.suFrom = none)
    (policy : Policy) :
    Both (step c policy target (draws n)) (step c policy target (draws n)) w v
      (fun e e' w' v' => e.Alike e' ∧ Settled draws clock reserved v w' v')
      fun _ _ _ _ => False := by
  unfold step
  split
  · exact createFor_both h (c := c.forAsset target.assetId) hasset hsu policy
  · exact .pure ⟨.same _, h.sublist (List.sublist_cons_self n reserved), rfl⟩

theorem mapM_step_both {c : Candidate} (hsu : c.suFrom = none) (policy : Policy)
    (targets : List Target) {ns : List Nat} (h : Related draws clock ns w v)
    (hassets : ∀ t ∈ targets, v.store.tables.hasAsset t.assetId = true) :
    Both ((targets.zip (ns.map draws)).mapM fun (target, d) => step c policy target d)
      ((targets.zip (ns.map draws)).mapM fun (target, d) => step c policy target d) w v
      (fun es es' w' v' => List.Forall₂ Entry.Alike es es' ∧ Related draws clock [] w' v')
      fun _ _ _ _ => False := by
  induction targets generalizing ns w v with
  | nil => exact .pure ⟨.nil, h.settled⟩
  | cons target rest ih =>
    cases ns with
    | nil => exact .pure ⟨.nil, h.settled⟩
    | cons n ns =>
      obtain ⟨hasset, hrest⟩ := List.forall_mem_cons.mp hassets
      rw [List.map_cons, List.zip_cons_cons, List.mapM_cons, List.mapM_cons]
      refine .bind ((step_both h hasset hsu policy).mono ?_ fun _ _ _ _ => id)
      rintro e e' w' v' ⟨he, hrelated, hsame⟩
      have hkept : ∀ t ∈ rest, v'.store.tables.hasAsset t.assetId = true := by
        unfold Tables.hasAsset
        rw [hsame]
        exact hrest
      refine .bind ((ih hrelated hkept).mono ?_ fun _ _ _ _ => id)
      rintro es es' w'' v'' ⟨hes, hrelated⟩
      exact .pure ⟨.cons he hes, hrelated⟩

theorem Entry.Alike.state {e e' : Entry} (h : e.Alike e') : e.state = e'.state := by
  cases h <;> rfl

theorem filter_alike {entries entries' : List Entry} (h : List.Forall₂ Entry.Alike entries entries')
    (s : State) :
    List.Forall₂ Entry.Alike (entries.filter (·.state = s)) (entries'.filter (·.state = s)) :=
  List.rel_filter (fun _ _ he => by simp only [he.state]) h

theorem conclude_alike {entries entries' : List Entry}
    (h : List.Forall₂ Entry.Alike entries entries') (policy : Policy) :
    (∃ es es', conclude policy entries = .ok es ∧ conclude policy entries' = .ok es' ∧
      List.Forall₂ Entry.Alike es es') ∨
    ∃ e e', conclude policy entries = .error e ∧ conclude policy entries' = .error e' ∧
      e.Alike e' := by
  have hfailed := filter_alike h .error
  have hnone :
      entries.filter (·.state = .error) ≠ [] ↔ entries'.filter (·.state = .error) ≠ [] := by
    rw [← List.length_pos_iff, ← List.length_pos_iff, hfailed.length_eq]
  rw [conclude_eq, conclude_eq]
  by_cases hfail : policy = .error ∧ entries.filter (·.state = .error) ≠ []
  · rw [if_pos hfail, if_pos ⟨hfail.1, hnone.mp hfail.2⟩]
    exact .inr ⟨_, _, rfl, rfl, .bulkFailed hfailed⟩
  · rw [if_neg hfail, if_neg fun hfail' => hfail ⟨hfail'.1, hnone.mpr hfail'.2⟩]
    refine .inl ⟨_, _, rfl, rfl, ?_⟩
    exact List.rel_flatMap (R := Eq) (List.forall₂_eq_eq_eq ▸ rfl) fun s _ hs =>
      hs ▸ filter_alike h s

theorem createDrawing_both (h : Related draws clock [] w v) {c : Candidate}
    (hsu : c.suFrom = none) {targets : List Target}
    (hassets : ∀ t ∈ targets, v.store.tables.hasAsset t.assetId = true) (policy : Policy) :
    Both (createDrawing c targets policy) (createDrawing c targets policy) w v
      (fun es es' w' v' => List.Forall₂ Entry.Alike es es' ∧ Related draws clock [] w' v')
      fun e e' w' v' => e.Alike e' ∧ Related draws clock [] w' v' := by
  have hw : upcoming w.supply targets.length =
      (List.range' w.supply.used targets.length).map draws := by rw [upcoming, h.source]
  have hv : upcoming v.supply targets.length =
      (List.range' w.supply.used targets.length).map draws := by rw [← h.supply, hw]
  refine .bind (.ok (mapM_draw targets w) (mapM_draw targets v) ?_)
  rw [hw, hv]
  have hdrawn := h.drawAhead targets.length
  refine .bind ((mapM_step_both hsu policy targets hdrawn hassets).mono ?_ ?_)
  · rintro es es' w' v' ⟨hes, hrelated⟩
    rcases conclude_alike hes policy with ⟨bs, bs', hb, hb', halike⟩ | ⟨e, e', he, he', halike⟩
    · rw [hb, hb']
      exact .pure ⟨halike, hrelated⟩
    · rw [he, he']
      exact .throw ⟨halike, hrelated⟩
  · exact fun _ _ _ _ => False.elim

end Bulk

end Custody
