import Custody.Proofs.Keyed
import Custody.Proofs.Store.Reachable
import Custody.Store.Memory

/-!
The calls on the store in memory, each opened once: when it succeeds and what it then holds. Every
map stays filed under the ids of its records.
-/
namespace Custody.Store

namespace Records

variable {r r' : Records}

theorem checkAccount_eq_ok_iff {a : Account} :
    checkAccount a r = .ok () ↔ ∀ b ∈ r.accounts.values, clashesWith a b = false := by
  unfold checkAccount
  cases h : r.accounts.values.find? (clashesWith a) with
  | none => simpa using h
  | some b =>
    refine iff_of_false (by dsimp only; split <;> simp) fun hall => ?_
    have hb := List.find?_some h
    rw [hall b (List.mem_of_find?_eq_some h)] at hb
    cases hb

theorem checkAccount_eq_error {a : Account} {e : Error} (h : checkAccount a r = .error e) :
    ∃ c, e = .duplicate c := by
  unfold checkAccount at h
  split at h
  · cases h
  · split at h <;> cases h <;> exact ⟨_, rfl⟩

theorem insertPlatform_eq_ok_iff {p : Platform} : r.insertPlatform p = .ok r' ↔
    r.platforms.contains p.id = false ∧ (∀ q ∈ r.platforms.values, q.name ≠ p.name) ∧
      r' = { r with platforms := r.platforms.place p.id p } := by
  unfold insertPlatform
  split
  · next h =>
    refine iff_of_false nofun fun ⟨hid, hname, _⟩ => ?_
    obtain ⟨q, hq, hqn⟩ : ∃ q ∈ r.platforms.values, q.name = p.name := by simpa [hid] using h
    exact hname q hq hqn
  · next h =>
    obtain ⟨hid, hname⟩ := Bool.or_eq_false_iff.mp (Bool.not_eq_true _ ▸ h)
    have hname : ∀ q ∈ r.platforms.values, q.name ≠ p.name := by simpa using hname
    exact ⟨fun heq => ⟨hid, hname, (Except.ok.inj heq).symm⟩, fun ⟨_, _, heq⟩ => heq ▸ rfl⟩

theorem insertAsset_eq_ok_iff {a : Asset} : r.insertAsset a = .ok r' ↔
    r.assets.contains a.id = false ∧ r.platforms.contains a.platformId = true ∧
      r' = { r with assets := r.assets.place a.id a.arranged } := by
  unfold insertAsset
  cases r.assets.contains a.id <;> cases r.platforms.contains a.platformId <;>
    simp [eq_comm]

theorem insertNode_eq_ok_iff {n : Node} : r.insertNode n = .ok r' ↔
    r.node? n.fullValue = none ∧ r' = { r with nodes := r.nodes.place n.id n } := by
  unfold insertNode
  cases r.node? n.fullValue <;> simp [eq_comm]

theorem insertTemplate_eq_ok_iff {t : Template} : r.insertTemplate t = .ok r' ↔
    (∀ u ∈ r.templates.values, u.orgId = t.orgId → u.name ≠ t.name) ∧
      r' = { r with templates := r.templates.place t.id t } := by
  unfold insertTemplate
  split
  · next h =>
    refine iff_of_false nofun fun ⟨hfree, _⟩ => ?_
    obtain ⟨u, hu, hut⟩ := List.any_eq_true.mp h
    obtain ⟨horg, hname⟩ := (Bool.and_eq_true _ _).mp hut
    exact hfree u hu (eq_of_beq horg) (eq_of_beq hname)
  · next h =>
    have hfree : ∀ u ∈ r.templates.values, u.orgId = t.orgId → u.name ≠ t.name := by
      simpa using h
    exact ⟨fun heq => ⟨hfree, (Except.ok.inj heq).symm⟩, fun ⟨_, heq⟩ => heq ▸ rfl⟩

theorem insertTemplate_eq_error {t : Template} {e : Error} (h : r.insertTemplate t = .error e) :
    ∃ c, e = .duplicate c := by
  unfold insertTemplate at h
  split at h <;> cases h
  exact ⟨_, rfl⟩

theorem insertAccount_eq_ok_iff {a : Account} : r.insertAccount a = .ok r' ↔
    r.accounts.contains a.id = false ∧ r.assets.contains a.assetId = true ∧
      checkAccount a r = .ok () ∧ r' = { r with accounts := r.accounts.place a.id a } := by
  unfold insertAccount
  cases r.accounts.contains a.id <;> cases r.assets.contains a.assetId <;>
    cases checkAccount a r <;> simp [bind, Except.bind, pure, Except.pure, eq_comm]

theorem updateAccount_eq_ok_iff {a : Account} : r.updateAccount a = .ok r' ↔
    r.accounts.contains a.id = true ∧ checkAccount a r = .ok () ∧
      r' = { r with accounts := r.accounts.place a.id a } := by
  unfold updateAccount
  cases r.accounts.contains a.id <;> cases checkAccount a r <;>
    simp [bind, Except.bind, pure, Except.pure, eq_comm]

theorem insertAccount_eq_error {a : Account} {e : Error}
    (hasset : r.assets.contains a.assetId = true) (h : r.insertAccount a = .error e) :
    ∃ c, e = .duplicate c := by
  unfold insertAccount at h
  rw [hasset] at h
  cases hid : r.accounts.contains a.id <;> cases hcheck : checkAccount a r <;>
    rw [hid, hcheck] at h <;> cases h
  · exact checkAccount_eq_error hcheck
  · exact ⟨_, rfl⟩
  · exact ⟨_, rfl⟩

theorem updateAccount_eq_error {a : Account} {e : Error}
    (hid : r.accounts.contains a.id = true) (h : r.updateAccount a = .error e) :
    ∃ c, e = .duplicate c := by
  unfold updateAccount at h
  rw [hid] at h
  cases hcheck : checkAccount a r <;> rw [hcheck] at h <;> cases h
  exact checkAccount_eq_error hcheck

theorem deleteAsset_of_missed {id : String} (h : (r.deleteAsset id).1 = false) :
    (r.deleteAsset id).2 = r := by
  unfold deleteAsset at h ⊢
  split
  · next hfound => rw [if_pos hfound] at h; cases h
  · rfl

inductive Step (r : Records) : Records → Prop
  | unchanged : Step r r
  | insertPlatform (p : Platform) : r.platforms.contains p.id = false →
    (∀ q ∈ r.platforms.values, q.name ≠ p.name) →
    Step r { r with platforms := r.platforms.place p.id p }
  | insertAsset (a : Asset) : r.assets.contains a.id = false →
    r.platforms.contains a.platformId = true →
    Step r { r with assets := r.assets.place a.id a.arranged }
  | deleteAsset (id : String) : Step r { r with
    assets := r.assets.erase id, accounts := r.accounts.filter fun (_, a) => a.assetId ≠ id }
  | insertNode (n : Node) : r.node? n.fullValue = none →
    Step r { r with nodes := r.nodes.place n.id n }
  | insertTemplate (t : Template) :
    (∀ u ∈ r.templates.values, u.orgId = t.orgId → u.name ≠ t.name) →
    Step r { r with templates := r.templates.place t.id t }
  | deleteTemplate (id : String) : Step r { r with templates := r.templates.erase id }
  | insertAccount (a : Account) : r.accounts.contains a.id = false →
    r.assets.contains a.assetId = true → checkAccount a r = .ok () →
    Step r { r with accounts := r.accounts.place a.id a }
  | updateAccount (a : Account) : r.accounts.contains a.id = true → checkAccount a r = .ok () →
    Step r { r with accounts := r.accounts.place a.id a }

/-- Every record stands under its own id. -/
structure Filed (r : Records) : Prop where
  platforms : r.platforms.Filed (·.id)
  assets : r.assets.Filed (·.id)
  nodes : r.nodes.Filed (·.id)
  templates : r.templates.Filed (·.id)
  accounts : r.accounts.Filed (·.id)

theorem Filed.empty : Records.empty.Filed := ⟨.nil, .nil, .nil, .nil, .nil⟩

theorem Filed.step (h : r.Filed) (hr : Step r r') : r'.Filed := by
  cases hr with
  | unchanged => exact h
  | insertPlatform p => exact { h with platforms := h.platforms.place p }
  | insertAsset a => exact { h with assets := h.assets.place a.arranged }
  | deleteAsset id => exact { h with assets := h.assets.erase id, accounts := h.accounts.filter _ }
  | insertNode n => exact { h with nodes := h.nodes.place n }
  | insertTemplate t => exact { h with templates := h.templates.place t }
  | deleteTemplate id => exact { h with templates := h.templates.erase id }
  | insertAccount a => exact { h with accounts := h.accounts.place a }
  | updateAccount a => exact { h with accounts := h.accounts.place a }

end Records

namespace Memory

theorem guarded_of_ok {f : Records → Except Error Records} {m : Memory} {r' : Records}
    (h : f m.records = .ok r') : guarded f m = (.ok (), { m with records := r' }) := by
  simp [guarded, Store.guarded, h, Except.map]

theorem guarded_of_error {f : Records → Except Error Records} {m : Memory} {e : Error}
    (h : f m.records = .error e) : guarded f m = (.error e, m) := by
  simp [guarded, Store.guarded, h, Except.map]

theorem eq_ok_of_guarded {f : Records → Except Error Records} {m m' : Memory}
    (h : guarded f m = (.ok (), m')) : ∃ r, f m.records = .ok r ∧ m' = { m with records := r } := by
  cases hf : f m.records with
  | ok r => rw [guarded_of_ok hf] at h; exact ⟨r, rfl, (Prod.mk.inj h).2.symm⟩
  | error e => rw [guarded_of_error hf] at h; cases h

theorem guarded_step {f : Records → Except Error Records}
    (h : ∀ r r', f r = .ok r' → Records.Step r r') (m : Memory) :
    Records.Step m.records (guarded f m).2.records := by
  cases hf : f m.records with
  | ok r' => rw [guarded_of_ok hf]; exact h _ _ hf
  | error e => rw [guarded_of_error hf]; exact .unchanged

theorem call_step (c : Call) (m : Memory) : Records.Step m.records (c.run m).2.records := by
  cases c with
  | insertPlatform p =>
    refine guarded_step (fun r r' h => ?_) m
    obtain ⟨hid, hname, rfl⟩ := Records.insertPlatform_eq_ok_iff.mp h
    exact .insertPlatform p hid hname
  | insertAsset a =>
    refine guarded_step (fun r r' h => ?_) m
    obtain ⟨hid, hplatform, rfl⟩ := Records.insertAsset_eq_ok_iff.mp h
    exact .insertAsset a hid hplatform
  | deleteAsset id =>
    change Records.Step m.records (m.records.deleteAsset id).2
    unfold Records.deleteAsset
    split
    · exact .deleteAsset id
    · exact .unchanged
  | insertNode n =>
    refine guarded_step (fun r r' h => ?_) m
    obtain ⟨hfree, rfl⟩ := Records.insertNode_eq_ok_iff.mp h
    exact .insertNode n hfree
  | insertTemplate t =>
    refine guarded_step (fun r r' h => ?_) m
    obtain ⟨hfree, rfl⟩ := Records.insertTemplate_eq_ok_iff.mp h
    exact .insertTemplate t hfree
  | deleteTemplate id => exact .deleteTemplate id
  | insertAccount a =>
    refine guarded_step (fun r r' h => ?_) m
    obtain ⟨hid, hasset, hcheck, rfl⟩ := Records.insertAccount_eq_ok_iff.mp h
    exact .insertAccount a hid hasset hcheck
  | updateAccount a =>
    refine guarded_step (fun r r' h => ?_) m
    obtain ⟨hid, hcheck, rfl⟩ := Records.updateAccount_eq_ok_iff.mp h
    exact .updateAccount a hid hcheck
  | enqueue p now => exact .unchanged

/-- What every call keeps of the records holds of every reachable store. -/
theorem reachable_invariant (I : Records → Prop) (hempty : I .empty)
    (hstep : ∀ r r', I r → Records.Step r r' → I r') {entries : List Memory} {m : Memory}
    (h : Reachable Memory.empty entries m) : I m.records :=
  h.invariant (fun m => I m.records) hempty (fun c m hm => hstep _ _ hm (call_step c m))
    (fun _ hm => hm) (fun _ hm => hm) (fun entry _ (hentry : I entry.records) _ => hentry)

end Memory

end Custody.Store
