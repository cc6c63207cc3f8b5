import Custody.Proofs.Store.Memory
import Custody.Proofs.Store.Tables

/-!
What a failure leaves behind: nothing. A failed call has not written, and a failed block is taken
back, on the tables together with its queued pushes, in memory down to the records.
-/
namespace Custody

open Run

namespace Store

theorem guarded_error {σ : Type} {f : σ → Except Error σ} {s s' : σ} {e : Error}
    (h : guarded f s = (.error e, s')) : s' = s := by
  unfold guarded at h
  split at h
  · cases h
  · exact (Prod.mk.inj h).2.symm

/-- A store on which failed calls and failed blocks change nothing, up to what `same` ignores. -/
structure Reverting {σ : Type} [Store σ] (same : σ → σ → Prop) : Prop where
  refl : ∀ s, same s s
  call : ∀ (c : Call) (s s' : σ) (e : Error), c.run s = (.error e, s') → same s s'
  missedAsset : ∀ (id : String) (s s' : σ), Store.deleteAsset id s = (.ok false, s') → same s s'
  missedTemplate : ∀ (id : String) (s s' : σ),
    Store.deleteTemplate id s = (.ok false, s') → same s s'
  transaction : ∀ {α : Type} (f : Run σ α), (∀ T, Closed T → Within T f) →
    ∀ (w w' : World σ) (e : Error), Run.transaction f w = (.error e, w') → same w.store w'.store

/-- What such a store keeps in the calls of a kind and at both ends of a block, it keeps in all that
is built of them. -/
theorem Reverting.enclosing {σ : Type} [Store σ] {same : σ → σ → Prop} (hs : Reverting same)
    {kind : Call → Prop} (htrans : ∀ {a b c : σ}, same a b → same b c → same a c)
    (henter : ∀ s, same s (Store.enter s)) (hcommit : ∀ s, same s (Store.commit s))
    (hcall : ∀ (c : Call) (s : σ), kind c → same s (c.run s).2) :
    Enclosing kind fun w w' : World σ => same w.store w'.store where
  refl w := hs.refl w.store
  trans := htrans
  draw w := hs.refl w.store
  call c w hc := hcall c w.store hc
  transaction f hclosed hf w := by
    have hin := hf { w with store := Store.enter w.store }
    match hrun : Run.transaction f w with
    | (.error e, w') => exact hs.transaction f hclosed w w' e hrun
    | (.ok a, w') =>
      unfold Run.transaction at hrun
      split at hrun
      · next heq =>
        rw [heq] at hin
        cases hrun
        exact htrans (henter w.store) (htrans hin (hcommit _))
      · cases hrun

namespace Memory

theorem guarded_error {f : Records → Except Error Records} {m m' : Memory} {e : Error}
    (h : guarded f m = (.error e, m')) : m' = m := Store.guarded_error h

theorem call_error {c : Call} {m m' : Memory} {e : Error} (h : c.run m = (.error e, m')) :
    m' = m := by
  cases c with
  | insertPlatform p => exact guarded_error (f := Records.insertPlatform p) h
  | insertAsset a => exact guarded_error (f := Records.insertAsset a) h
  | deleteAsset id => cases h
  | insertNode n => exact guarded_error (f := Records.insertNode n) h
  | insertTemplate t => exact guarded_error (f := Records.insertTemplate t) h
  | deleteTemplate id => cases h
  | insertAccount a => exact guarded_error (f := Records.insertAccount a) h
  | updateAccount a => exact guarded_error (f := Records.updateAccount a) h
  | enqueue p now => cases h

/-- Pushes that a failed block queued stay queued. -/
theorem reverting : Reverting fun m m' : Memory => m'.records = m.records where
  refl _ := rfl
  call _ _ _ _ h := by rw [call_error h]
  missedAsset id m m' h := by
    change (Except.ok (m.records.deleteAsset id).1,
      { m with records := (m.records.deleteAsset id).2 }) = _ at h
    obtain ⟨hfound, rfl⟩ := Prod.mk.inj h
    exact Records.deleteAsset_of_missed (Except.ok.inj hfound)
  missedTemplate id m m' h := by
    obtain ⟨hfound, rfl⟩ := Prod.mk.inj h
    have herase := Keyed.erase_of_contains_eq_false (Except.ok.inj hfound)
    dsimp only
    rw [herase]
  transaction f _ w w' e h := by
    unfold Run.transaction at h
    split at h
    · cases h
    · cases h; rfl

end Memory

namespace Relational

theorem guarded_error {f : Tables.Statement} {s s' : Relational} {e : Error}
    (h : guarded f s = (.error e, s')) : s' = s := Store.guarded_error h

theorem performAll_error {fs : List Tables.Statement} {s s' : Relational} {e : Error}
    (h : performAll fs s = (.error e, s')) : s' = s :=
  guarded_error (performAll_eq fs s ▸ h)

theorem call_error {c : Call} {s s' : Relational} {e : Error} (h : c.run s = (.error e, s')) :
    s' = s := by
  cases c with
  | insertPlatform p => exact performAll_error h
  | insertAsset a => exact performAll_error h
  | deleteAsset id => cases h
  | insertNode n => exact guarded_error (f := Tables.insertNode n) h
  | insertTemplate t => exact guarded_error (f := Tables.insertTemplate t) h
  | deleteTemplate id => cases h
  | insertAccount a => exact guarded_error (f := Tables.insertAccount a) h
  | updateAccount a => exact guarded_error (f := Tables.updateAccount a) h
  | enqueue p now => cases h

theorem closed_frame :
    Closed fun w w' : World Relational => ∃ t, w'.store = { w.store with tables := t } where
  refl w := ⟨w.store.tables, rfl⟩
  trans := by
    rintro a b c ⟨t, h⟩ ⟨u, h'⟩
    exact ⟨u, by rw [h', h]⟩
  draw w := ⟨w.store.tables, rfl⟩
  call c w := call_frame c w.store
  transaction f hf w := by
    obtain ⟨t, ht⟩ := hf { w with store := Store.enter w.store }
    unfold Run.transaction
    split
    · next heq =>
      rw [heq] at ht
      refine ⟨t, ?_⟩
      dsimp only at ht ⊢
      rw [ht]
      exact commit_enter w.store t
    · next heq =>
      rw [heq] at ht
      refine ⟨w.store.tables, ?_⟩
      dsimp only at ht ⊢
      rw [ht]
      exact revert_enter w.store t

theorem reverting : Reverting fun s s' : Relational => s' = s where
  refl _ := rfl
  call _ _ _ _ h := call_error h
  missedAsset id s s' h := by
    change (Except.ok (s.tables.deleteAsset id).1,
      { s with tables := (s.tables.deleteAsset id).2 }) = _ at h
    obtain ⟨hfound, rfl⟩ := Prod.mk.inj h
    rw [Tables.deleteAsset_of_missed (Except.ok.inj hfound)]
  missedTemplate id s s' h := by
    obtain ⟨hfound, rfl⟩ := Prod.mk.inj h
    have hkeep : s.tables.templates.filter (·.id != id) = s.tables.templates :=
      List.filter_eq_self.mpr fun u hu => by
        simpa using List.any_eq_false.mp (Except.ok.inj hfound) u hu
    rw [hkeep]
  transaction f hf w w' e h := by
    obtain ⟨t, ht⟩ := hf _ closed_frame { w with store := Store.enter w.store }
    unfold Run.transaction at h
    split at h
    · cases h
    · next heq =>
      rw [heq] at ht
      cases h
      dsimp only at ht ⊢
      rw [ht]
      exact revert_enter w.store t

end Relational

end Store

end Custody
