import Custody.Proofs.Asset.Settled
import Custody.Proofs.Service.History
import Custody.Proofs.Store.Catalog

/-!
The protocols of stored assets, over whole runs. An asset goes in with protocols that its platform
accepts; neither they nor the platform are touched again, so validation never objects later.
-/
namespace Custody.Service

open Run Store

variable {σ : Type} [Store σ] {good : σ → Prop} {held : Option Platform} {s s' : σ}

/-- Every platform has a normalised protocol list, and every asset the protocols that its platform
accepts. The platform that an asset is about to refer to is there. -/
structure Accepted (good : σ → Prop) (held : Option Platform) (s : σ) : Prop where
  good : good s
  platforms : ∀ id p, Store.platform? s id = some p → Platform.Normalized p.protocols
  assets : ∀ id a, Store.asset? s id = some a →
    ∃ p, Store.platform? s a.platformId = some p ∧ Asset.Settled p a.protocols
  held : ∀ p ∈ held, Store.platform? s p.id = some p

def Permits (held : Option Platform) : Call → Prop
  | .insertPlatform p => Platform.Normalized p.protocols
  | .insertAsset a => ∃ p ∈ held, a.platformId = p.id ∧ (∀ q ∈ a.protocols, q.Blank) ∧
    Asset.Settled p (Asset.sortProtocols a.protocols)
  | _ => True

theorem permits_of_onAccounts {c : Call} (hc : c.OnAccounts) : Permits held c := by
  cases c with
  | insertPlatform | insertAsset => exact hc.elim
  | _ => trivial

namespace Accepted

theorem released (h : Accepted good held s) : Accepted good none s := { h with held := by simp }

theorem shrinks (h : Accepted good held s) (hs : good s' ∧ Shrinks s s') :
    Accepted good held s' := by
  obtain ⟨hgood, hplatforms, hassets⟩ := hs
  refine ⟨hgood, ?_, ?_, ?_⟩
  · rw [hplatforms]
    exact h.platforms
  · rw [hplatforms]
    exact fun id a ha => h.assets id a (hassets id a ha)
  · rw [hplatforms]
    exact h.held

theorem insertPlatform (L : Catalog good) (h : Accepted good held s) {p : Platform}
    (hp : Platform.Normalized p.protocols) (hins : Store.insertPlatform p s = (.ok (), s')) :
    Accepted good held s' := by
  obtain ⟨hgood, hassets, q, hprotocols, hjoined⟩ := L.insertPlatform h.good hins
  refine ⟨hgood, fun id r hr => ?_, fun id a ha => ?_, fun r hr => hjoined.kept (h.held r hr)⟩
  · rcases hjoined.found hr with hr | rfl
    · exact h.platforms id r hr
    · exact hprotocols ▸ hp
  · rw [hassets] at ha
    obtain ⟨r, hr, hsettled⟩ := h.assets id a ha
    exact ⟨r, hjoined.kept hr, hsettled⟩

theorem insertAsset (L : Catalog good) (h : Accepted good held s) {a : Asset}
    (ha : Permits held (.insertAsset a)) (hins : Store.insertAsset a s = (.ok (), s')) :
    Accepted good held s' := by
  obtain ⟨p, hp, hid, hblank, hsettled⟩ := ha
  obtain ⟨hgood, hplatforms, b, hplatform, hprotocols, hjoined⟩ := L.insertAsset h.good hblank hins
  refine ⟨hgood, hplatforms ▸ h.platforms, fun id c hc => ?_, hplatforms ▸ h.held⟩
  rw [hplatforms]
  rcases hjoined.found hc with hc | rfl
  · exact h.assets id c hc
  · refine ⟨p, ?_, hprotocols ▸ hsettled⟩
    rw [hplatform, hid]
    exact h.held p hp

theorem call (L : Catalog good) (h : Accepted good held s) {c : Call} (hc : Permits held c) :
    Accepted good held (c.run s).2 := by
  match hrun : c.run s with
  | (.error e, s') => exact h.shrinks (L.reverting.call c s s' e hrun h.good)
  | (.ok (), s') =>
    cases c with
    | insertPlatform p => exact h.insertPlatform L hc hrun
    | insertAsset a => exact h.insertAsset L hc hrun
    | _ =>
      rw [← show _ = s' from congrArg Prod.snd hrun]
      exact h.shrinks (L.aside trivial h.good)

theorem enclosing (L : Catalog good) (held : Option Platform) :
    Enclosing (Permits held) fun w w' : World σ =>
      Accepted good held w.store → Accepted good held w'.store := by
  have hreverting : Reverting fun s s' : σ => Accepted good held s → Accepted good held s' :=
    L.reverting.mono fun _ _ hsame h => h.shrinks (hsame h.good)
  exact hreverting.enclosing (fun h h' hs => h' (h hs)) (fun _ h => h.shrinks (L.enter h.good))
    (fun _ h => h.shrinks (L.commit h.good)) fun _ _ hc h => h.call L hc

end Accepted

theorem createAsset_accepted (L : Catalog good) (draft : Asset.Draft) (org : String)
    (policy : Policy) :
    Within (fun w w' : World σ => Accepted good none w.store → Accepted good none w'.store)
      (createAsset draft org policy) := by
  intro w h
  refine Ends.reached (P := fun w' => Accepted good none w'.store) ?_
  unfold createAsset
  refine .refusing h fun _ => .find h fun platform hfound => ?_
  refine .bind (.of (fun entries _ => ?_) fun _ _ => h)
  refine .bind (.of (fun validated hvalid => ?_) fun _ _ => h)
  refine .bind (.of (fun protocols hprotocols => ?_) fun _ _ => h)
  refine .bind (.of (fun labels _ => .drawing fun d w' hsame => ?_) fun _ _ => h)
  have hheld : Accepted good (some platform) w'.store := by
    rw [hsame]
    refine { h with held := fun p hp => ?_ }
    obtain rfl := Option.some.inj hp
    rwa [L.own h.good hfound]
  have hsettled := Asset.settled_of_validate (h.platforms _ _ hfound).primary hvalid hprotocols
  obtain ⟨-, hstored⟩ := Protocol.Entry.mapM_toProtocol hprotocols
  have hblank (q : Protocol) (hq : q ∈ protocols) : q.Blank :=
    (Protocol.Entry.toProtocol_eq_ok_iff.mp (hstored q hq)).2.1
  have hT := Accepted.enclosing L (some platform)
  have hwithin (paths : List String) := hT.transaction _
    (fun U hU => storeAsset_within hU draft platform protocols labels paths policy d)
    (storeAsset_enclosing hT (Node.ensure_allowing hT.toAllowing fun _ => trivial)
      (fun _ => permits_of_onAccounts) draft platform protocols
      (fun a hplatform heq => ⟨platform, rfl, hplatform, heq ▸ hblank, heq ▸ hsettled⟩)
      labels paths policy d)
  exact ((hwithin _).ends w').mono (fun _ _ h => (h hheld).released) fun _ _ h => (h hheld).released

theorem Operation.run_accepted (L : Catalog good) (op : Operation) :
    Within (fun w w' : World σ => Accepted good none w.store → Accepted good none w'.store)
      (op.run : Run σ Reply) := by
  have hT := Accepted.enclosing L none
  have hP := hT.toPreorder
  have honAccounts (c : Call) : c.OnAccounts → Permits none c := permits_of_onAccounts
  cases op with
  | createPlatform draft =>
    refine .bind hP (createPlatform_allowing hT.toAllowing draft fun id now p hbuilt => ?_)
      fun _ => .pure hP _
    exact Platform.normalized_of_build hbuilt
  | createAsset draft org policy =>
    exact .bind hP (createAsset_accepted L draft org policy) fun _ => .pure hP _
  | deleteAsset id =>
    exact .bind hP (deleteAsset_allowing hT.toAllowing id trivial) fun _ => .pure hP _
  | createAccount payload policy =>
    exact .bind hP (createAccount_enclosing hT honAccounts payload policy) fun _ => .pure hP _
  | updateAccount id payload =>
    exact .bind hP (updateAccount_enclosing hT honAccounts id payload) fun _ => .pure hP _
  | bulkCreateAccounts payload policy =>
    exact .bind hP (bulkCreateAccounts_enclosing hT honAccounts payload policy) fun _ => .pure hP _
  | createTemplate payload org =>
    exact .bind hP (createTemplate_allowing hT.toAllowing (fun _ => trivial) payload org) fun _ =>
      .pure hP _
  | deleteTemplate id =>
    exact .bind hP (deleteTemplate_allowing hT.toAllowing id trivial) fun _ => .pure hP _

theorem after_accepted (L : Catalog good) (ops : List Operation) {w : World σ}
    (h : Accepted good none w.store) : Accepted good none (after ops w).store := by
  induction ops generalizing w with
  | nil => exact h
  | cons op rest ih => exact ih (op.run_accepted L w h)

theorem accepted_memory (supply : Supply) (ops : List Operation) :
    Accepted (fun m : Memory => m.records.Filed) none
      (after ops (⟨Memory.empty, supply⟩ : World Memory)).store :=
  after_accepted Memory.catalog ops
    ⟨.empty, fun _ _ h => (nomatch h), fun _ _ h => (nomatch h), by simp⟩

theorem accepted_relational (supply : Supply) (clock : Time.Instant) (ops : List Operation) :
    Accepted (fun s : Relational => s.tables.Valid) none
      (after ops (⟨Relational.empty clock, supply⟩ : World Relational)).store :=
  after_accepted Relational.catalog ops
    ⟨.empty, fun _ _ h => (nomatch h), fun _ _ h => (nomatch h), by simp⟩

/-- Every stored asset has its platform stored, and protocols that are settled under it. -/
def ProtocolsSettled (s : σ) : Prop :=
  ∀ a ∈ Store.assets s, ∃ p, Store.platform? s a.platformId = some p ∧ Asset.Settled p a.protocols

theorem Accepted.protocolsSettled (L : Catalog good) (h : Accepted good none s) :
    ProtocolsSettled s := fun a ha => h.assets a.id a (L.listed h.good ha)

/-- Whatever operations have run from an empty store, validation under its platform gives back the
protocols of each asset as they are stored. -/
theorem protocols_settled (supply : Supply) (clock : Time.Instant) (ops : List Operation) :
    ProtocolsSettled (after ops ⟨Memory.empty, supply⟩).store ∧
      ProtocolsSettled (after ops ⟨Relational.empty clock, supply⟩).store := by
  constructor
  · exact (accepted_memory supply ops).protocolsSettled Memory.catalog
  · exact (accepted_relational supply clock ops).protocolsSettled Relational.catalog

end Custody.Service
