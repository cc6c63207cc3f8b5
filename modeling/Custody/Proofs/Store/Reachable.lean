import Custody.Proofs.Run

/-!
What clients may do with a store: write calls in any order, inside blocks that nest and that end
either way. A store is reachable also in the middle of a block. `Closed` relations are those that
every call and every block respects, whatever a step built from them does in between.
-/
namespace Custody

namespace Store

inductive Call where
  | insertPlatform (p : Platform)
  | insertAsset (a : Asset)
  | deleteAsset (id : String)
  | insertNode (n : Node)
  | insertTemplate (t : Template)
  | deleteTemplate (id : String)
  | insertAccount (a : Account)
  | updateAccount (a : Account)
  | enqueue (p : Push) (now : Time.Instant)

variable {σ : Type} [Store σ]

def Call.run (s : σ) : Call → Except Error Unit × σ
  | insertPlatform p => Store.insertPlatform p s
  | insertAsset a => Store.insertAsset a s
  | deleteAsset id => let (r, s') := Store.deleteAsset id s; (r.map fun _ => (), s')
  | insertNode n => Store.insertNode n s
  | insertTemplate t => Store.insertTemplate t s
  | deleteTemplate id => let (r, s') := Store.deleteTemplate id s; (r.map fun _ => (), s')
  | insertAccount a => Store.insertAccount a s
  | updateAccount a => Store.updateAccount a s
  | enqueue p now => (.ok (), Store.enqueue p now s)

def Call.OnAccounts : Call → Prop
  | insertAccount _ | updateAccount _ | enqueue _ _ => True
  | _ => False

def Call.Plants : Call → Prop
  | insertNode _ => True
  | _ => False

theorem Call.OnAccounts.not_plants {c : Call} (h : c.OnAccounts) : ¬ c.Plants := by
  cases c with
  | insertNode n => exact absurd h id
  | _ => exact id

/-- The stores that calls and blocks lead to. The list holds the stores at the entries of the blocks
that are still open, innermost first. -/
inductive Reachable (start : σ) : List σ → σ → Prop
  | start : Reachable start [] start
  | call {entries : List σ} {s : σ} (c : Call) :
    Reachable start entries s → Reachable start entries (c.run s).2
  | enter {entries : List σ} {s : σ} :
    Reachable start entries s → Reachable start (s :: entries) (Store.enter s)
  | commit {entries : List σ} {entry s : σ} :
    Reachable start (entry :: entries) s → Reachable start entries (Store.commit s)
  | revert {entries : List σ} {entry s : σ} :
    Reachable start (entry :: entries) s → Reachable start entries (Store.revert entry s)

/-- What calls and both ends of a block keep holds of every reachable store. -/
theorem Reachable.invariant {start : σ} (I : σ → Prop) (hstart : I start)
    (hcall : ∀ c s, I s → I (Call.run s c).2) (henter : ∀ s, I s → I (Store.enter s))
    (hcommit : ∀ s, I s → I (Store.commit s))
    (hrevert : ∀ entry s, I entry → I s → I (Store.revert entry s)) {entries : List σ} {s : σ}
    (h : Reachable start entries s) : I s := by
  suffices I s ∧ ∀ entry ∈ entries, I entry from this.1
  induction h with
  | start => exact ⟨hstart, by simp⟩
  | call c _ ih => exact ⟨hcall c _ ih.1, ih.2⟩
  | enter _ ih => exact ⟨henter _ ih.1, List.forall_mem_cons.mpr ih⟩
  | commit _ ih => exact ⟨hcommit _ ih.1, (List.forall_mem_cons.mp ih.2).2⟩
  | revert _ ih =>
    obtain ⟨hentry, hrest⟩ := List.forall_mem_cons.mp ih.2
    exact ⟨hrevert _ _ hentry ih.1, hrest⟩

theorem Reachable.calls {start s : σ} {entries : List σ} (h : Reachable start entries s)
    (calls : List Call) :
    Reachable start entries (calls.foldl (fun s c => (c.run s).2) s) := by
  induction calls generalizing s with
  | nil => exact h
  | cons c rest ih => exact ih (h.call c)

end Store

namespace Run

variable {σ α : Type} [Store σ]

structure Allowing (kind : Store.Call → Prop) (T : World σ → World σ → Prop) : Prop
    extends Preorder T where
  draw : ∀ w, T w { w with supply := { w.supply with used := w.supply.used + 1 } }
  call : ∀ (c : Store.Call) (w : World σ), kind c → T w { w with store := (c.run w.store).2 }

structure Closed (T : World σ → World σ → Prop) : Prop extends Preorder T where
  draw : ∀ w, T w { w with supply := { w.supply with used := w.supply.used + 1 } }
  call : ∀ (c : Store.Call) (w : World σ), T w { w with store := (c.run w.store).2 }
  transaction : ∀ {α : Type} (f : Run σ α), Within T f → Within T (Run.transaction f)

/-- A relation between worlds that draws, the calls of a kind and blocks respect. -/
structure Enclosing (kind : Store.Call → Prop) (T : World σ → World σ → Prop) : Prop
    extends Allowing kind T where
  transaction : ∀ {α : Type} (f : Run σ α), (∀ U, Closed U → Within U f) → Within T f →
    Within T (Run.transaction f)

variable {kind : Store.Call → Prop} {T : World σ → World σ → Prop}

theorem Closed.allowing (hT : Closed T) : Allowing (fun _ => True) T :=
  ⟨hT.toPreorder, hT.draw, fun c w _ => hT.call c w⟩

theorem Closed.enclosing (hT : Closed T) : Enclosing (fun _ => True) T :=
  ⟨hT.allowing, fun f _ hf => hT.transaction f hf⟩

theorem Allowing.drawing (hT : Allowing kind T) : Within T (Run.draw : Run σ Draw) := hT.draw

theorem Allowing.write (hT : Allowing kind T) (c : Store.Call) (hc : kind c)
    {f : σ → Except Error α × σ} (h : ∀ s, (f s).2 = (c.run s).2) : Within T (Run.write f) := by
  intro w
  have hcall := hT.call c w hc
  rw [← h] at hcall
  exact hcall

theorem Closed.write (hT : Closed T) (c : Store.Call) {f : σ → Except Error α × σ}
    (h : ∀ s, (f s).2 = (c.run s).2) : Within T (Run.write f) := hT.allowing.write c trivial h

/-- A step built from draws, calls and blocks leads from one reachable store to the next. -/
theorem closed_reachable (start : σ) : Closed fun w w' : World σ =>
    ∀ entries, Store.Reachable start entries w.store → Store.Reachable start entries w'.store where
  refl _ _ h := h
  trans h₁ h₂ entries h := h₂ entries (h₁ entries h)
  draw _ _ h := h
  call c _ _ h := .call c h
  transaction f hf w entries h := by
    have hin := hf { w with store := Store.enter w.store } _ h.enter
    unfold Run.transaction
    split
    · next heq =>
      rw [heq] at hin
      exact hin.commit
    · next heq =>
      rw [heq] at hin
      exact hin.revert

end Run

end Custody
