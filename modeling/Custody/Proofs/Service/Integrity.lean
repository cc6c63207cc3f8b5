import Custody.Proofs.Service.History

/-!
What stored records refer to. In every state that operations lead to, each reference leads to a
record that is there; the memory has no constraints to insist on it, so it is the order of the steps
that keeps it so. An account can come to switch from itself in one way only.
-/
namespace Custody.Service

open Run Store

variable {σ : Type} [Store σ] {good : σ → Prop} {dated : Time.Instant → Time.Instant}
  {hasNode : σ → String → Prop} {w : World σ}

/-- Accounts stand on assets that are there, assets on platforms and under nodes that are there, and
an account that may switch from another finds it on its own asset. -/
structure Intact (nodes : σ → List Node) (s : σ) : Prop where
  assets : ∀ a ∈ Store.accounts s none, (Store.asset? s a.assetId).isSome
  platforms : ∀ b ∈ Store.assets s, (Store.platform? s b.platformId).isSome
  nodes : ∀ b ∈ Store.assets s, ∀ id ∈ b.nodeIds, ∃ n ∈ nodes s, n.id = id
  suFrom : ∀ a ∈ Store.accounts s none, ∀ id, a.suFrom = some id →
    ∃ b ∈ Store.accounts s none, b.id = id ∧ b.assetId = a.assetId

theorem suFrom_listed (L : Ledger good dated hasNode) {s : σ} (hgood : good s)
    (hlinked : Accounts.Linked (account? s)) {a : Account} (ha : a ∈ Store.accounts s none)
    {id : String} (hsu : a.suFrom = some id) :
    ∃ b ∈ Store.accounts s none, b.id = id ∧ b.assetId = a.assetId := by
  obtain ⟨b, hb, hasset⟩ := hlinked a.id a ((L.listed hgood).mp ha) id hsu
  obtain rfl := L.own hgood hb
  exact ⟨b, (L.listed hgood).mpr hb, rfl, hasset⟩

theorem intact_memory {m : Memory} (hm : m.records.Filed ∧ m.records.References)
    (hlinked : Accounts.Linked (account? m)) : Intact (·.records.nodes.values) m where
  assets a ha := hm.2.accounts a (Memory.mem_accounts.mp ha)
  platforms b hb := hm.2.platforms b (List.mem_mergeSort.mp hb)
  nodes b hb id hid := by
    obtain ⟨n, hn⟩ := Option.isSome_iff_exists.mp (hm.2.nodes b (List.mem_mergeSort.mp hb) id hid)
    exact ⟨n, hm.1.nodes.get?_eq_some_iff.mp hn⟩
  suFrom a ha id hsu := suFrom_listed Memory.ledger hm hlinked ha hsu

theorem intact_relational {clock : Time.Instant} {s : Relational} (hs : Relational.Kept clock s)
    (hlinked : Accounts.Linked (account? s)) : Intact (·.tables.nodes) s where
  assets a ha := by
    obtain ⟨row, hrow, rfl⟩ := Relational.mem_accounts.mp ha
    obtain ⟨asset, hasset, hid⟩ := hs.2.accounts row hrow
    refine (Option.isSome_map ..).trans (List.find?_isSome.mpr ⟨asset, hasset, beq_iff_eq.mpr hid⟩)
  platforms b hb := by
    obtain ⟨row, hrow, rfl⟩ := List.mem_map.mp hb
    obtain ⟨p, hp, hid⟩ := hs.2.assets row (List.mem_mergeSort.mp hrow)
    refine (Option.isSome_map ..).trans (List.find?_isSome.mpr ⟨p, hp, beq_iff_eq.mpr hid⟩)
  nodes b hb id hid := by
    obtain ⟨row, hrow, rfl⟩ := List.mem_map.mp hb
    exact hs.2.nodes _ (Tables.mem_nodeIdsOf.mp hid)
  suFrom a ha id hsu := suFrom_listed (Relational.ledger clock) hs hlinked ha hsu

/-- Whatever operations have run from an empty store, no reference leads astray. -/
theorem references_intact (supply : Supply) (clock : Time.Instant) (ops : List Operation) :
    Intact (·.records.nodes.values) (after ops ⟨Memory.empty, supply⟩).store ∧
      Intact (·.tables.nodes) (after ops ⟨Relational.empty clock, supply⟩).store := by
  have hm := memory_sound supply ops
  have hs := relational_sound supply clock ops
  exact ⟨intact_memory hm.1 hm.2, intact_relational hs.1 hs.2⟩

/-- No operation of the run makes an account switch from itself. -/
def Honest (ops : List Operation) (w : World σ) : Prop :=
  ∀ x ∈ ops.zip (trace ops w), x.1.switchesItself x.2.1 = false

/-- No account switches from itself unless an operation of the run makes one do so. -/
theorem after_not_selfSwitching (L : Ledger good dated hasNode) (ops : List Operation)
    (hgood : good w.store) (hlinked : Accounts.Linked (account? w.store))
    (hops : Honest ops w)
    (hnone : ∀ id a, account? w.store id = some a → ¬ a.SelfSwitching) :
    ∀ id a, account? (after ops w).store id = some a → ¬ a.SelfSwitching := by
  induction ops generalizing w with
  | nil => exact hnone
  | cons op rest ih =>
    obtain ⟨hop, hrest⟩ := List.forall_mem_cons.mp hops
    obtain ⟨hgood', heffect⟩ := op.run_effect L hgood hlinked
    refine ih hgood' heffect.linked hrest fun id b hb hself => ?_
    rcases heffect.selfSwitching id b hb hself with ⟨a, ha, hself⟩ | hblamed
    · exact hnone id a ha hself
    · exact nomatch hop.symm.trans hblamed

theorem listed_not_selfSwitching (L : Ledger good dated hasNode) (ops : List Operation)
    (hgood : good w.store) (hempty : ∀ id, account? w.store id = none) (hops : Honest ops w) :
    ∀ a ∈ Store.accounts (after ops w).store none, a.suFrom ≠ some a.id := by
  have hlinked : Accounts.Linked (account? w.store) :=
    fun id a ha => nomatch (hempty id).symm.trans ha
  have hgood' := (after_sound L ops hgood hlinked).1
  intro a ha
  exact after_not_selfSwitching L ops hgood hlinked hops
    (fun id b hb => nomatch (hempty id).symm.trans hb) a.id a ((L.listed hgood').mp ha)

/-- As long as no creation rewrites the account that its payload names as the one to switch from, no
account comes to switch from itself. -/
theorem none_selfSwitching (supply : Supply) (clock : Time.Instant) (ops : List Operation) :
    (Honest ops (⟨Memory.empty, supply⟩ : World Memory) →
      ∀ a ∈ Store.accounts (after ops ⟨Memory.empty, supply⟩ : World Memory).store none,
        a.suFrom ≠ some a.id) ∧
    (Honest ops (⟨Relational.empty clock, supply⟩ : World Relational) →
      ∀ a ∈ Store.accounts (after ops ⟨Relational.empty clock, supply⟩ : World Relational).store
        none, a.suFrom ≠ some a.id) := by
  constructor
  · intro hops
    exact listed_not_selfSwitching Memory.ledger ops ⟨.empty, .empty⟩ (fun _ => rfl) hops
  · intro hops
    exact listed_not_selfSwitching (Relational.ledger clock) ops ⟨⟨.empty, rfl⟩, .empty⟩
      (fun _ => rfl) hops

def hostOperations : List Operation := [
  .createPlatform ⟨"Linux", .host, .linux, .utf8, false, false, none, .off,
    [⟨"ssh", 22, true, true, true, .ofList [.password]⟩], [], ""⟩,
  .createAsset ⟨"web", "10.0.0.1", "i", none, true, "", none, [], ["/prod"],
    [[("username", .text "root")]]⟩ "org" .error]

def switching : List Operation := hostOperations ++ [
  .createAccount [("asset", .text "ii"), ("username", .text "app")] .error,
  .createAccount [("asset", .text "ii"), ("name", .text "app"), ("su_from", .text "iiii"),
    ("username", .text "app")] .update]

theorem none_selfSwitching_switching :
    (Honest switching (⟨Memory.empty, countedDraws, 0⟩ : World Memory) ∧
      ∀ a ∈ Store.accounts (after switching ⟨Memory.empty, countedDraws, 0⟩ : World Memory).store
        none, a.suFrom ≠ some a.id) ∧
    (Honest switching (⟨Relational.empty ⟨0, 0⟩, countedDraws, 0⟩ : World Relational) ∧
      ∀ a ∈ Store.accounts
        (after switching ⟨Relational.empty ⟨0, 0⟩, countedDraws, 0⟩ : World Relational).store none,
        a.suFrom ≠ some a.id) ∧
    (account? (after switching ⟨Memory.empty, countedDraws, 0⟩ : World Memory).store "iiiii").bind
      (·.suFrom) = some "iiii" := by
  have hnone := none_selfSwitching ⟨countedDraws, 0⟩ ⟨0, 0⟩ switching
  have hw : Honest switching (⟨Memory.empty, countedDraws, 0⟩ : World Memory) := by
    unfold Honest
    decide +kernel
  have hv : Honest switching (⟨Relational.empty ⟨0, 0⟩, countedDraws, 0⟩ : World Relational) := by
    unfold Honest
    decide +kernel
  exact ⟨⟨hw, hnone.1 hw⟩, ⟨hv, hnone.2 hv⟩, by decide +kernel⟩

/-- The first account created again under the update policy, with itself as the one to switch from.
The check before it does not know yet which account that will be. -/
def adoption : List Operation := hostOperations ++ [
  .createAccount [("asset", .text "ii"), ("name", .text "root"), ("su_from", .text "iiii"),
    ("username", .text "root")] .update]

theorem selfSwitching_after_adoption :
    (Store.accounts (after adoption ⟨Memory.empty, countedDraws, 0⟩).store none).map
      (fun a => (a.id, a.suFrom)) = [("iiii", some "iiii")] ∧
    (Store.accounts (after adoption ⟨Relational.empty ⟨0, 0⟩, countedDraws, 0⟩).store none).map
      (fun a => (a.id, a.suFrom)) = [("iiii", some "iiii")] := by
  decide +kernel

end Custody.Service
