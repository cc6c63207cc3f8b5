import Custody.Proofs.Store.Ledger

/-!
The queue of pushes. A push joins the end of it, and nothing but a queueing or a reverted block
changes it. The tables number the pushes upwards and hold their parameters as text, so a push comes
back from them with the parameters that its text says.
-/
namespace Custody

open Run

def Push.reread (p : Push) : Push :=
  ⟨p.accountIds, p.params.map fun v => Store.readColumn v.compact⟩

namespace Store

def Call.Silent : Call → Prop
  | enqueue _ _ => False
  | _ => True

/-- A store with a queue, in which a push stands as `kept` says. -/
structure Queueing {σ : Type} [Store σ] (queue : σ → List Push) (kept : Push → Push) : Prop where
  seamless : Seamless σ
  enqueue : ∀ p now s, queue (Store.enqueue p now s) = queue s ++ [kept p]
  account? : ∀ p now (s : σ), account? (Store.enqueue p now s) = account? s
  silent : ∀ (c : Call) (s : σ), c.Silent → queue (c.run s).2 = queue s
  enter : ∀ s, queue (Store.enter s) = queue s
  commit : ∀ s, queue (Store.commit s) = queue s

theorem Queueing.allowing {σ : Type} [Store σ] {queue : σ → List Push} {kept : Push → Push}
    (hq : Queueing queue kept) :
    Allowing Call.Silent fun w w' : World σ => queue w'.store = queue w.store where
  refl _ := rfl
  trans h h' := h'.trans h
  draw _ := rfl
  call c w hc := hq.silent c w.store hc

theorem Queueing.insertAsset {σ : Type} [Store σ] {queue : σ → List Push} {kept : Push → Push}
    (hq : Queueing queue kept) {a : Asset} {s s' : σ} {r : Except Error Unit}
    (h : Store.insertAsset a s = (r, s')) : queue s' = queue s := by
  have hsilent := hq.silent (.insertAsset a) s trivial
  rwa [show (Call.insertAsset a).run s = _ from h] at hsilent

namespace Memory

theorem guarded_pushes (f : Records → Except Error Records) (m : Memory) :
    (guarded f m).2.pushes = m.pushes := by
  cases h : f m.records with
  | ok r => rw [guarded_of_ok h]
  | error e => rw [guarded_of_error h]

theorem queueing : Queueing Memory.pushes id where
  seamless := seamless
  enqueue _ _ _ := rfl
  account? _ _ _ := rfl
  silent c m hc := by
    cases c with
    | insertPlatform p => exact guarded_pushes _ m
    | insertAsset a => exact guarded_pushes _ m
    | deleteAsset id => rfl
    | insertNode n => exact guarded_pushes _ m
    | insertTemplate u => exact guarded_pushes _ m
    | deleteTemplate id => rfl
    | insertAccount a => exact guarded_pushes _ m
    | updateAccount a => exact guarded_pushes _ m
    | enqueue p now => exact hc.elim
  enter _ := rfl
  commit _ := rfl

theorem insertAsset_stored {a : Asset} {m m' : Memory}
    (h : Store.insertAsset a m = (.ok (), m')) :
    Store.asset? m' a.id = some a.arranged := by
  obtain ⟨r, hr, rfl⟩ := eq_ok_of_guarded h
  obtain ⟨_, _, rfl⟩ := Records.insertAsset_eq_ok_iff.mp hr
  exact Keyed.get?_place_self _ _ _

end Memory

namespace Tables

variable {t t' : Tables}

theorem deleteAsset_pushTasks (id : String) : (t.deleteAsset id).2.pushTasks = t.pushTasks := by
  unfold deleteAsset
  split <;> rfl

def Numbered (t : Tables) : Prop := t.pushTasks.Pairwise fun a b => a.id < b.id

theorem Numbered.empty : Tables.empty.Numbered := .nil

theorem Numbered.of_eq (h : t.Numbered) (heq : t'.pushTasks = t.pushTasks) : t'.Numbered := by
  rwa [Numbered, heq]

theorem Numbered.step (h : t.Numbered) (ht : Step t t') : t'.Numbered := by
  cases ht with
  | insertPushTask row hid =>
    refine List.pairwise_append.mpr ⟨h, List.pairwise_singleton _ _, fun a ha b hb => ?_⟩
    rw [List.mem_singleton.mp hb, hid]
    exact lt_nextId (List.mem_map_of_mem ha)
  | deleteAsset id => exact h.of_eq (deleteAsset_pushTasks id)
  | _ => exact h

theorem Numbered.listPushTasks (h : t.Numbered) (limit : Option Nat) :
    listPushTasks limit t =
      match limit with
      | some n => (t.pushTasks.reverse.map PushRow.read).take n
      | none => t.pushTasks.reverse.map PushRow.read := by
  -- The numbers rise in the order of insertion, so the newest first is the reverse of it.
  have hnodup : (t.pushTasks.map (·.id)).Nodup := List.pairwise_map.mpr (h.imp Nat.ne_of_lt)
  have hsort : (t.pushTasks.mergeSort fun a b => b.id ≤ a.id) = t.pushTasks.reverse := by
    have hperm := List.mergeSort_perm t.pushTasks fun a b => decide (b.id ≤ a.id)
    refine List.Perm.eq_of_pairwise (fun a b ha hb hab hba => ?_)
      (List.pairwise_mergeSort (by simp; omega) (by simp; omega) t.pushTasks)
      (List.pairwise_reverse.mpr (h.imp fun hlt => decide_eq_true (Nat.le_of_lt hlt)))
      (hperm.trans (List.reverse_perm _).symm)
    refine Rows.eq_of_key_eq hnodup (hperm.mem_iff.mp ha) (List.mem_reverse.mp hb) ?_
    exact Nat.le_antisymm (of_decide_eq_true hba) (of_decide_eq_true hab)
  unfold Tables.listPushTasks
  rw [hsort]
  cases limit with
  | none => rfl
  | some n => exact List.map_take

end Tables

namespace Relational

def queue (s : Relational) : List Push :=
  s.tables.pushTasks.map fun row => (Tables.PushRow.read row).push

theorem call_pushTasks {c : Call} (hc : c.Silent) (s : Relational) :
    (c.run s).2.tables.pushTasks = s.tables.pushTasks := by
  cases c with
  | insertPlatform p =>
    exact congrArg Prod.snd (performAll_keeps (Tables.keeps_platformStatements p) s)
  | insertAsset a => exact congrArg Prod.snd (performAll_keeps (Tables.keeps_assetStatements a) s)
  | deleteAsset id => exact Tables.deleteAsset_pushTasks id
  | insertNode n => exact congrArg Prod.snd (guarded_keeps (Tables.keeps_insertNode n) s)
  | insertTemplate u => exact congrArg Prod.snd (guarded_keeps (Tables.keeps_insertTemplate u) s)
  | deleteTemplate id => rfl
  | insertAccount a => exact guarded_keeps (Tables.keeps_insertAccount (fun _ _ => rfl) a) s
  | updateAccount a => exact guarded_keeps (Tables.keeps_updateAccount (fun _ _ => rfl) a) s
  | enqueue p now => exact hc.elim

theorem queue_enqueue (p : Push) (now : Time.Instant) (s : Relational) :
    queue (Store.enqueue p now s) = queue s ++ [p.reread] := by
  change (s.tables.insertPushTask p now).pushTasks.map _ = _
  rw [Tables.insertPushTask, List.map_append]
  simp [queue, Tables.PushRow.read, Push.reread, Function.comp_def]

theorem queueing : Queueing queue Push.reread where
  seamless := seamless
  enqueue := queue_enqueue
  account? _ _ _ := rfl
  silent c s hc := by rw [queue, call_pushTasks hc, queue]
  enter _ := rfl
  commit _ := rfl

theorem listPushTasks_eq {clock : Time.Instant} {entries : List Relational} {s : Relational}
    (h : Reachable (Relational.empty clock) entries s) :
    (Tables.listPushTasks none s.tables).map (·.push) = (queue s).reverse ∧
      ∀ n, Tables.listPushTasks (some n) s.tables =
        (Tables.listPushTasks none s.tables).take n := by
  have hnumbered : s.tables.Numbered := reachable_invariant .empty (fun _ _ => .step) h
  rw [hnumbered.listPushTasks]
  refine ⟨?_, fun n => hnumbered.listPushTasks (some n)⟩
  rw [queue, List.map_map, List.map_reverse]
  rfl

end Relational

end Store

end Custody
