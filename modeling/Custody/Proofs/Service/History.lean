import Custody.Proofs.Service.Effects

/-!
What operations leave of the accounts, one after the other. An account stays until its asset is
deleted; it keeps its id, its asset and the date of its creation, never loses a secret and counts
the changes of its secret in its version.
-/
namespace Custody

open Run Store

namespace Account

variable {a b : Account}

theorem Succeeds.version_toInt (h : a.Succeeds b) (hmax : a.version < Int32.maxValue) :
    b.version.toInt = if b.secret = a.secret then a.version.toInt else a.version.toInt + 1 := by
  rw [h.version]
  split
  · rfl
  · have hmin := a.version.le_toInt
    rw [Int32.lt_iff_toInt_lt, Int32.toInt_maxValue] at hmax
    rw [Int32.toInt_add, Int32.toInt_one]
    exact Int.bmod_eq_of_le (by omega) (by omega)

theorem Succeeds.version_le (h : a.Succeeds b) (hmax : a.version < Int32.maxValue) :
    a.version.toInt ≤ b.version.toInt := by
  rw [h.version_toInt hmax]
  split <;> omega

end Account

namespace Service

variable {σ : Type} [Store σ] {good : σ → Prop} {dated : Time.Instant → Time.Instant}
  {hasNode : σ → String → Prop} {w : World σ}

def after (ops : List Operation) (w : World σ) : World σ := ops.foldl (fun w op => (op.run w).2) w

theorem after_sound (L : Ledger good dated hasNode) (ops : List Operation) (hgood : good w.store)
    (hlinked : Accounts.Linked (account? w.store)) :
    good (after ops w).store ∧ Accounts.Linked (account? (after ops w).store) := by
  induction ops generalizing w with
  | nil => exact ⟨hgood, hlinked⟩
  | cons op rest ih =>
    obtain ⟨hgood', heffect⟩ := op.run_effect L hgood hlinked
    exact ih hgood' heffect.linked

/-- What becomes of the accounts that are there, in one step and in the long run. -/
structure Lasting (w : World σ) : Prop where
  step : ∀ (op : Operation) id a, account? w.store id = some a → op ≠ .deleteAsset a.assetId →
    ∃ b, account? (op.run w).2.store id = some b ∧
      b.id = a.id ∧ b.assetId = a.assetId ∧ b.dateCreated = a.dateCreated ∧
      (a.secret.isSome → b.secret.isSome) ∧
      (a.version < Int32.maxValue →
        b.version.toInt = if b.secret = a.secret then a.version.toInt else a.version.toInt + 1)
  run : ∀ ops id a, account? w.store id = some a → Operation.deleteAsset a.assetId ∉ ops →
    (∀ before op rest b, ops = before ++ op :: rest → account? (after before w).store id = some b →
      b.version < Int32.maxValue) →
    ∃ b, account? (after ops w).store id = some b ∧ a.version.toInt ≤ b.version.toInt

theorem lasting (L : Ledger good dated hasNode) (hgood : good w.store)
    (hlinked : Accounts.Linked (account? w.store)) : Lasting w where
  step op id a ha hop := by
    obtain ⟨-, heffect⟩ := op.run_effect L hgood hlinked
    obtain ⟨b, hb, h⟩ := (heffect.kept id a ha).resolve_left hop
    exact ⟨b, hb, h.id, h.assetId, h.dateCreated, h.secret, h.version_toInt⟩
  run ops id a ha hops hmax := by
    induction ops generalizing w a with
    | nil => exact ⟨a, ha, Int.le_refl _⟩
    | cons op rest ih =>
      obtain ⟨hop, hrest⟩ := List.ne_and_not_mem_of_not_mem_cons hops
      obtain ⟨hgood', heffect⟩ := op.run_effect L hgood hlinked
      obtain ⟨b, hb, hab⟩ := (heffect.kept id a ha).resolve_left hop.symm
      have hmax' := hmax [] op rest a rfl ha
      obtain ⟨c, hc, hbc⟩ := ih hgood' heffect.linked b hb (hab.assetId ▸ hrest)
        fun before next more d hsplit hd => hmax (op :: before) next more d (by rw [hsplit]; rfl) hd
      exact ⟨c, hc, Int.le_trans (hab.version_le hmax') hbc⟩

theorem memory_sound (supply : Supply) (ops : List Operation) :
    let m := (after ops ⟨Memory.empty, supply⟩).store
    (m.records.Filed ∧ m.records.References) ∧ Accounts.Linked (account? m) :=
  after_sound Memory.ledger ops ⟨.empty, .empty⟩ fun _ _ h => nomatch h

theorem relational_sound (supply : Supply) (clock : Time.Instant) (ops : List Operation) :
    let s := (after ops ⟨Relational.empty clock, supply⟩).store
    Relational.Kept clock s ∧ Accounts.Linked (account? s) :=
  after_sound (Relational.ledger clock) ops ⟨⟨.empty, rfl⟩, .empty⟩ fun _ _ h => nomatch h

/-- Whatever operations have run from an empty store, the next one and all that follow keep every
account whose asset they do not delete, and its version counts the changes of its secret. -/
theorem accounts_last (supply : Supply) (clock : Time.Instant) (ops : List Operation) :
    Lasting (after ops ⟨Memory.empty, supply⟩) ∧
      Lasting (after ops ⟨Relational.empty clock, supply⟩) := by
  have hm := memory_sound supply ops
  have hs := relational_sound supply clock ops
  exact ⟨lasting Memory.ledger hm.1 hm.2, lasting (Relational.ledger clock) hs.1 hs.2⟩

def rotation : List Operation := [
  .createPlatform ⟨"Linux", .host, .linux, .utf8, false, false, none, .off,
    [⟨"ssh", 22, true, true, true, .ofList [.password]⟩], [], ""⟩,
  .createAsset ⟨"web", "10.0.0.1", "i", none, true, "", none, [], ["/prod"],
    [[("secret", .text "old"), ("username", .text "root")]]⟩ "org" .error,
  .bulkCreateAccounts [("assets", .list [.text "ii", .text "ii"]), ("secret", .text "new"),
    ("username", .text "root")] .update]

theorem accounts_last_rotation :
    let w : World Memory := ⟨Memory.empty, countedDraws, 0⟩
    let v : World Relational := ⟨Relational.empty ⟨0, 0⟩, countedDraws, 0⟩
    (Lasting (after (rotation.take 2) w) ∧ Lasting (after (rotation.take 2) v)) ∧
    (trace rotation w).map (fun x => (Store.accounts x.2.store none).map fun a =>
      (a.secret, a.version)) = [[], [(some "old", 1)], [(some "new", 2)]] ∧
    (trace rotation v).map (fun x => (Store.accounts x.2.store none).map fun a =>
      (a.secret, a.version)) = [[], [(some "old", 1)], [(some "new", 2)]] := by
  intro w v
  exact ⟨accounts_last ⟨countedDraws, 0⟩ ⟨0, 0⟩ (rotation.take 2), by decide +kernel,
    by decide +kernel⟩

end Service

end Custody
