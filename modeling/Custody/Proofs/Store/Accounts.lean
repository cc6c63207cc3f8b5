import Custody.Proofs.Account.History
import Custody.Proofs.Store.Rollback
import Custody.Proofs.Store.Uniqueness

/-!
The account calls through what the look-ups tell before and behind them. A block around a single
call is not seen, so the reconciliation of a candidate needs no block to be understood.
-/
namespace Custody

namespace Run

variable {σ α β : Type} [Store σ]

theorem transaction_bind_pure (f : Run σ α) (g : α → β) :
    Run.transaction (f >>= fun a => pure (g a)) = Run.transaction f >>= fun a => pure (g a) := by
  funext w
  rw [bind_apply]
  unfold Run.transaction
  rw [bind_apply]
  cases f { w with store := Store.enter w.store } with
  | mk r w' => cases r <;> rfl

theorem transaction_ask {f : σ → α} (hf : ∀ s, f (Store.enter s) = f s) (g : α → Run σ β) :
    Run.transaction (Run.ask f >>= g) = Run.ask f >>= fun a => Run.transaction (g a) := by
  funext w
  have hl : (Run.ask f >>= g) { w with store := Store.enter w.store } =
      g (f w.store) { w with store := Store.enter w.store } := by rw [bind_apply, ← hf w.store]; rfl
  have hr : (Run.ask f >>= fun a => Run.transaction (g a)) w = Run.transaction (g (f w.store)) w :=
    rfl
  rw [hr, Run.transaction, Run.transaction, hl]

end Run

def Account.redated (f : Time.Instant → Time.Instant) (a : Account) : Account :=
  { a with dateCreated := f a.dateCreated, dateUpdated := f a.dateUpdated }

theorem Account.hasSlot_iff {a : Account} {asset username : String} {type : SecretType} :
    a.hasSlot asset username type ↔
      a.assetId = asset ∧ a.username = username ∧ a.secretType = type := by
  simp [Account.hasSlot, and_assoc]

namespace Candidate

theorem applyTo_redated (c : Candidate) (a : Account) (now : Time.Instant)
    (dated : Time.Instant → Time.Instant) :
    (c.applyTo a now).redated dated = c.applyTo (a.redated dated) (dated now) := by
  have h := c.applyTo_overwrites a now
  exact Overwrites.eq_applyTo
    { h with
      dateCreated := congrArg dated h.dateCreated
      dateUpdated := congrArg dated h.dateUpdated }

theorem slot_or_name_of_existing? {σ : Type} [Store σ] {c : Candidate} {lookup : Lookup} {s : σ}
    {a : Account} (h : c.existing? lookup s = some a) :
    Store.accountBySlot? s c.assetId c.username c.secretType = some a ∨
      Store.accountByName? s c.assetId c.name = some a := by
  unfold existing? at h
  split at h
  · next b hslot => exact .inl (hslot.trans h)
  · cases lookup with
    | slot => cases h
    | nameOrSlot => exact .inr h

end Candidate

namespace Store

/-- A store on which a block around one account call is not seen. -/
structure Seamless (σ : Type) [Store σ] : Prop where
  commit_enter : ∀ s : σ, commit (enter s) = s
  revert_enter : ∀ s : σ, revert s (enter s) = s
  slot : ∀ (s : σ) (asset username : String) (type : SecretType),
    accountBySlot? (enter s) asset username type = accountBySlot? s asset username type
  name : ∀ (s : σ) (asset name : String),
    accountByName? (enter s) asset name = accountByName? s asset name
  insert : ∀ a, Run.transaction (Run.write (insertAccount a : σ → _)) = Run.write (insertAccount a)
  update : ∀ a, Run.transaction (Run.write (updateAccount a : σ → _)) = Run.write (updateAccount a)

theorem Seamless.reconcile {σ : Type} [Store σ] (hs : Seamless σ) (c : Candidate) (lookup : Lookup)
    (policy : Policy) (id : String) (now : Time.Instant) :
    Run.transaction (c.reconcile lookup policy id now : Run σ (Account × Outcome)) =
      c.reconcile lookup policy id now := by
  have hfound (s : σ) : c.existing? lookup (enter s) = c.existing? lookup s := by
    unfold Candidate.existing?
    rw [hs.slot]
    cases lookup with
    | slot => rfl
    | nameOrSlot => simp only [hs.name]
  have hpure (r : Account × Outcome) : Run.transaction (pure r : Run σ _) = pure r := by
    funext w
    change (Except.ok r, { w with store := commit (enter w.store) }) = _
    rw [hs.commit_enter]
    rfl
  unfold Candidate.reconcile
  rw [Run.transaction_ask hfound]
  congr 1
  funext found
  cases found with
  | none => exact (Run.transaction_bind_pure _ _).trans (by rw [hs.insert])
  | some a =>
    cases policy with
    | skip => exact hpure _
    | update => exact (Run.transaction_bind_pure _ _).trans (by rw [hs.update])
    | error =>
      funext w
      change (Except.error _, { w with store := revert w.store (enter w.store) }) = _
      rw [hs.revert_enter]
      rfl

theorem Memory.transaction_guarded (f : Records → Except Error Records) :
    Run.transaction (Run.write (Memory.guarded f)) = Run.write (Memory.guarded f) := by
  funext w
  have henter : Store.enter w.store = w.store := rfl
  unfold Run.transaction Run.write
  cases hf : f w.store.records with
  | ok r => simp only [henter, guarded_of_ok hf]; rfl
  | error e => simp only [henter, guarded_of_error hf]; rfl

theorem Memory.seamless : Seamless Memory where
  commit_enter _ := rfl
  revert_enter _ := rfl
  slot _ _ _ _ := rfl
  name _ _ _ := rfl
  insert a := transaction_guarded (Records.insertAccount a)
  update a := transaction_guarded (Records.updateAccount a)

theorem Relational.transaction_guarded (f : Tables.Statement) :
    Run.transaction (Run.write (Relational.guarded f)) = Run.write (Relational.guarded f) := by
  funext w
  unfold Run.transaction Run.write
  cases hf : f w.store.tables with
  | ok t =>
    have hin : guarded f (Store.enter w.store) = (.ok (), { w.store.enter with tables := t }) :=
      guarded_of_ok hf
    simp only [guarded_of_ok hf, hin]
    rfl
  | error e =>
    have hin : guarded f (Store.enter w.store) = (.error e, w.store.enter) := guarded_of_error hf
    simp only [guarded_of_error hf, hin]
    rfl

theorem Relational.seamless : Seamless Relational where
  commit_enter s := commit_enter s s.tables
  revert_enter s := revert_enter s s.tables
  slot _ _ _ _ := rfl
  name _ _ _ := rfl
  insert a := transaction_guarded (Tables.insertAccount a)
  update a := transaction_guarded (Tables.updateAccount a)

/-- What the account calls do to the look-ups, on stores of which `good` holds. A date is read back
through `dated`. -/
structure Bookkeeping {σ : Type} [Store σ] (good : σ → Prop)
    (dated : Time.Instant → Time.Instant) : Prop where
  slot : ∀ {s : σ} {asset username : String} {type : SecretType} {a : Account}, good s →
    accountBySlot? s asset username type = some a →
    a.hasSlot asset username type ∧ account? s a.id = some a
  reread : ∀ {s : σ} {id : String} {a : Account}, account? s id = some a → good s →
    a.redated dated = a
  insert : ∀ {s s' : σ} {a : Account}, good s → insertAccount a s = (.ok (), s') →
    good s' ∧ account? s a.id = none ∧
      ∀ id, account? s' id = if id = a.id then some (a.redated dated) else account? s id
  insert_error : ∀ {s s' : σ} {a : Account} {e : Error}, insertAccount a s = (.error e, s') → s' = s
  update : ∀ {s s' : σ} {a old : Account}, good s → account? s a.id = some old →
    a.assetId = old.assetId → a.dateCreated = old.dateCreated →
    updateAccount a s = (.ok (), s') →
    good s' ∧ ∀ id, account? s' id = if id = a.id then some (a.redated dated) else account? s id
  update_error : ∀ {s s' : σ} {a : Account} {e : Error}, updateAccount a s = (.error e, s') → s' = s

/-- What came of a candidate with this id to spend: its new account, the account of its slot after
or without a rewriting, or an error that left everything as it was. -/
inductive Reconciled {σ : Type} [Store σ] (dated : Time.Instant → Time.Instant) (c : Candidate)
    (id : String) (now : Time.Instant) (s : σ) : σ → Except Error (Account × Outcome) → Prop
  | created {s' : σ} : account? s id = none →
    (∀ i, account? s' i = if i = id then some ((c.toAccount id now).redated dated)
      else account? s i) →
    Reconciled dated c id now s s' (.ok (c.toAccount id now, .created))
  | updated {s' : σ} (old : Account) : account? s old.id = some old →
    old.hasSlot c.assetId c.username c.secretType →
    (∀ i, account? s' i = if i = old.id then some (c.applyTo old (dated now))
      else account? s i) →
    Reconciled dated c id now s s' (.ok (c.applyTo old now, .updated))
  | skipped (old : Account) : account? s old.id = some old →
    old.hasSlot c.assetId c.username c.secretType →
    Reconciled dated c id now s s (.ok (old, .skipped))
  | failed (e : Error) : Reconciled dated c id now s s (.error e)

theorem Bookkeeping.existing? {σ : Type} [Store σ] {good : σ → Prop}
    {dated : Time.Instant → Time.Instant} (hb : Bookkeeping good dated) {c : Candidate}
    {lookup : Lookup} {s : σ} {a : Account} (hs : good s)
    (hname : accountByName? s c.assetId c.name = some a →
      a.assetId = c.assetId ∧ account? s a.id = some a)
    (h : c.existing? lookup s = some a) : a.assetId = c.assetId ∧ account? s a.id = some a := by
  rcases Candidate.slot_or_name_of_existing? h with hslot | hfound
  · exact (hb.slot hs hslot).imp_left fun hfills => (Account.hasSlot_iff.mp hfills).1
  · exact hname hfound

section Reconcile

variable {σ : Type} [Store σ] {c : Candidate} {lookup : Lookup} {policy : Policy} {id : String}
  {now : Time.Instant} {s s' : σ} {r : Except Error Unit}

theorem existing?_slot (c : Candidate) (s : σ) :
    c.existing? .slot s = accountBySlot? s c.assetId c.username c.secretType := by
  unfold Candidate.existing?
  split <;> next h => exact h.symm

theorem reconcile_of_none (hnone : c.existing? lookup s = none)
    (h : insertAccount (c.toAccount id now) s = (r, s')) (supply : Supply) :
    (c.reconcile lookup policy id now : Run σ _) ⟨s, supply⟩ =
      (r.map fun _ => (c.toAccount id now, .created), ⟨s', supply⟩) := by
  unfold Candidate.reconcile
  simp only [Run.ask_bind, hnone]
  cases r with
  | ok _ => exact Run.bind_of_ok (Run.write_of_eq h) _
  | error e => exact Run.bind_of_error (Run.write_of_eq h) _

variable (policy id now) in
theorem reconcile_of_some {old : Account} (hsome : c.existing? lookup s = some old)
    (supply : Supply) :
    (c.reconcile lookup policy id now : Run σ _) ⟨s, supply⟩ =
      match policy with
      | .skip => (.ok (old, .skipped), ⟨s, supply⟩)
      | .update =>
        ((updateAccount (c.applyTo old now) s).1.map fun _ => (c.applyTo old now, .updated),
          ⟨(updateAccount (c.applyTo old now) s).2, supply⟩)
      | .error => (.error (.conflict .account), ⟨s, supply⟩) := by
  unfold Candidate.reconcile
  simp only [Run.ask_bind, hsome]
  cases policy with
  | skip => rfl
  | error => rfl
  | update =>
    cases h : updateAccount (c.applyTo old now) s with
    | mk r s' =>
      cases r with
      | ok _ => exact Run.bind_of_ok (Run.write_of_eq h) _
      | error e => exact Run.bind_of_error (Run.write_of_eq h) _

theorem reconcile_of_free (hfree : accountBySlot? s c.assetId c.username c.secretType = none)
    (h : insertAccount (c.toAccount id now) s = (r, s')) (supply : Supply) :
    (c.reconcile .slot policy id now : Run σ _) ⟨s, supply⟩ =
      (r.map fun _ => (c.toAccount id now, .created), ⟨s', supply⟩) :=
  reconcile_of_none ((existing?_slot c s).trans hfree) h supply

variable (policy id now) in
theorem reconcile_of_held {old : Account}
    (hheld : accountBySlot? s c.assetId c.username c.secretType = some old) (supply : Supply) :
    (c.reconcile .slot policy id now : Run σ _) ⟨s, supply⟩ =
      match policy with
      | .skip => (.ok (old, .skipped), ⟨s, supply⟩)
      | .update =>
        ((updateAccount (c.applyTo old now) s).1.map fun _ => (c.applyTo old now, .updated),
          ⟨(updateAccount (c.applyTo old now) s).2, supply⟩)
      | .error => (.error (.conflict .account), ⟨s, supply⟩) :=
  reconcile_of_some policy id now ((existing?_slot c s).trans hheld) supply

end Reconcile

theorem Bookkeeping.reconcile {σ : Type} [Store σ] {good : σ → Prop}
    {dated : Time.Instant → Time.Instant} (hb : Bookkeeping good dated) (c : Candidate)
    (policy : Policy) (id : String) (now : Time.Instant) {s : σ} (hs : good s) :
    ∃ r s', good s' ∧ Reconciled dated c id now s s' r ∧
      ∀ supply, (c.reconcile .slot policy id now : Run σ _) ⟨s, supply⟩ = (r, ⟨s', supply⟩) := by
  cases hslot : accountBySlot? s c.assetId c.username c.secretType with
  | none =>
    cases hins : insertAccount (c.toAccount id now) s with
    | mk r s' =>
      cases r with
      | ok _ =>
        obtain ⟨hgood, hfree, hafter⟩ := hb.insert hs hins
        exact ⟨_, s', hgood, .created hfree hafter, reconcile_of_free hslot hins⟩
      | error e =>
        obtain rfl := hb.insert_error hins
        exact ⟨_, _, hs, .failed e, reconcile_of_free hslot hins⟩
  | some old =>
    obtain ⟨hfills, hold⟩ := hb.slot hs hslot
    have hrun := reconcile_of_held policy id now hslot
    cases policy with
    | skip => exact ⟨_, s, hs, .skipped old hold hfills, hrun⟩
    | error => exact ⟨_, s, hs, .failed _, hrun⟩
    | update =>
      cases hupd : updateAccount (c.applyTo old now) s with
      | mk r s' =>
        rw [hupd] at hrun
        cases r with
        | ok _ =>
          obtain ⟨hid, hasset, hdate, -⟩ := c.applyTo_rewritten old now
          obtain ⟨hgood, hafter⟩ := hb.update hs (hid ▸ hold) hasset hdate hupd
          rw [hid, c.applyTo_redated, hb.reread hold hs] at hafter
          exact ⟨_, s', hgood, .updated old hold hfills hafter, hrun⟩
        | error e =>
          obtain rfl := hb.update_error hupd
          exact ⟨_, _, hs, .failed e, hrun⟩

theorem Memory.bookkeeping : Bookkeeping (fun m : Memory => m.records.Filed) id where
  slot {m asset username type a} hm h := by
    have hslot : m.records.accounts.values.find? (·.hasSlot asset username type) = some a := h
    refine ⟨List.find?_some (p := fun b : Account => b.hasSlot asset username type) hslot, ?_⟩
    exact hm.accounts.get?_eq_some_iff.mpr ⟨List.mem_of_find?_eq_some hslot, rfl⟩
  reread _ _ := rfl
  insert {m m' a} hm h := by
    obtain ⟨r, hr, rfl⟩ := eq_ok_of_guarded h
    obtain ⟨hfree, hasset, hcheck, rfl⟩ := Records.insertAccount_eq_ok_iff.mp hr
    refine ⟨hm.step (.insertAccount a hfree hasset hcheck), ?_, fun id => ?_⟩
    · exact Option.isNone_iff_eq_none.mp (Option.isSome_eq_false_iff.mp hfree)
    · exact Keyed.get?_place _ _ _ _
  insert_error h := call_error (c := .insertAccount _) h
  update {m m' a old} hm _ _ _ h := by
    obtain ⟨r, hr, rfl⟩ := eq_ok_of_guarded h
    obtain ⟨hfound, hcheck, rfl⟩ := Records.updateAccount_eq_ok_iff.mp hr
    exact ⟨hm.step (.updateAccount a hfound hcheck), fun id => Keyed.get?_place _ _ _ _⟩
  update_error h := call_error (c := .updateAccount _) h

theorem Tables.readDate_readDate (clock stored : Time.Instant) :
    readDate clock (readDate clock stored) = readDate clock stored := by
  unfold readDate
  split
  · rfl
  · split <;> rfl

theorem Relational.bookkeeping (clock : Time.Instant) :
    Bookkeeping (fun s : Relational => s.tables.Keys ∧ s.clock = clock)
      (Tables.readDate clock) where
  slot {s asset username type a} hs h := by
    obtain ⟨row, hrow, rfl⟩ := Option.map_eq_some_iff.mp h
    have hfind : s.tables.accounts.find? (·.id == row.id) = some row :=
      (Rows.find?_key_eq_some_iff hs.1.accountIds).mpr ⟨List.mem_of_find?_eq_some hrow, rfl⟩
    have hslot := List.find?_some (p := fun b : Account => b.hasSlot asset username type) hrow
    exact ⟨hslot, congrArg (Option.map (Tables.readAccount s.clock)) hfind⟩
  reread {s id a} h hs := by
    obtain ⟨row, -, rfl⟩ := Option.map_eq_some_iff.mp h
    simp only [Tables.readAccount, Account.redated, hs.2, Tables.readDate_readDate]
  insert {s s' a} hs h := by
    have hkeys : ((Call.insertAccount a).run s).2.tables.Keys :=
      call_invariant (fun _ _ => .step) (.insertAccount a) s hs.1
    rw [show (Call.insertAccount a).run s = _ from h] at hkeys
    obtain ⟨t, ht, rfl⟩ := eq_ok_of_guarded h
    obtain ⟨hid, -, -, -, rfl⟩ := Tables.insertAccount_eq_ok_iff.mp ht
    have hnone : s.tables.accounts.find? (·.id == a.id) = none :=
      Rows.find?_key_eq_none_iff.mpr fun b hb => (hid b hb).symm
    refine ⟨⟨hkeys, hs.2⟩, congrArg (Option.map _) hnone, fun id => ?_⟩
    change ((s.tables.accounts ++ [a]).find? (·.id == id)).map (Tables.readAccount s.clock) = _
    rw [List.find?_append]
    split
    · next h =>
      rw [h, hnone]
      simp [Account.redated, Tables.readAccount, hs.2]
    · next h =>
      have hne : (a.id == id) = false := beq_eq_false_iff_ne.mpr (Ne.symm h)
      simp only [List.find?_cons, hne, List.find?_nil, Option.or_none]
      rfl
  insert_error h := call_error (c := .insertAccount _) h
  update {s s' a old} hs hold hasset hdate h := by
    have hkeys : ((Call.updateAccount a).run s).2.tables.Keys :=
      call_invariant (fun _ _ => .step) (.updateAccount a) s hs.1
    rw [show (Call.updateAccount a).run s = _ from h] at hkeys
    obtain ⟨t, ht, rfl⟩ := eq_ok_of_guarded h
    obtain ⟨row, hrow, -, -, rfl⟩ := Tables.updateAccount_eq_ok_iff.mp ht
    refine ⟨⟨hkeys, hs.2⟩, fun id => ?_⟩
    obtain ⟨row', hrow', rfl⟩ := Option.map_eq_some_iff.mp hold
    obtain rfl : row = row' := Option.some.inj (hrow.symm.trans hrow')
    have hid (b : Account) : (if b.id == a.id then
        { a with assetId := row.assetId, dateCreated := row.dateCreated } else b).id = b.id := by
      split
      · next h => exact (eq_of_beq h).symm
      · rfl
    change ((s.tables.accounts.map _).find? (·.id == id)).map (Tables.readAccount s.clock) = _
    rw [List.find?_map]
    simp only [Function.comp_def, hid]
    split
    · next h =>
      have hrowid := List.find?_some (p := fun b : Account => b.id == a.id) hrow
      have hasset : row.assetId = a.assetId := hasset.symm
      have hdate : Tables.readDate s.clock row.dateCreated = a.dateCreated := hdate.symm
      rw [h, hrow]
      change some (Tables.readAccount s.clock (if row.id == a.id then _ else row)) = _
      rw [if_pos hrowid, hasset, ← hs.2]
      simp only [Tables.readAccount, Account.redated]
      rw [← hdate, Tables.readDate_readDate]
    · next h =>
      rw [Option.map_map]
      refine Option.map_congr fun b hb => ?_
      have hbid := List.find?_some (p := fun b : Account => b.id == id) hb
      have hne : b.id ≠ a.id := fun heq => h ((eq_of_beq hbid).symm.trans heq)
      exact congrArg (Tables.readAccount s.clock) (if_neg (by simpa using hne))
  update_error h := call_error (c := .updateAccount _) h

end Store

end Custody
