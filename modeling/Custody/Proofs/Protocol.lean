import Custody.Platform
import Custody.Proofs.Protocol.Gathered

/-!
What the checks make of protocol lists. A list that passed, of a platform or of an asset, has each
name once, and an asset's protocols carry nothing but what their entries said.
-/
namespace Custody

theorem exists_of_bind_eq_ok {ε α β : Type} {x : Except ε α} {f : α → Except ε β} {b : β}
    (h : x >>= f = .ok b) : ∃ a, x = .ok a ∧ f a = .ok b := by
  cases x with
  | ok a => exact ⟨a, rfl, h⟩
  | error e => cases h

theorem forM_eq_ok_iff {ε α : Type} {f : α → Except ε Unit} {as : List α} :
    as.forM f = .ok () ↔ ∀ a ∈ as, f a = .ok () := by
  induction as with
  | nil => exact iff_of_true rfl (by simp)
  | cons a rest ih =>
    change (f a >>= fun _ => rest.forM f) = _ ↔ _
    rw [List.forall_mem_cons, ← ih]
    constructor
    · intro h
      obtain ⟨_, ha, hrest⟩ := exists_of_bind_eq_ok h
      exact ⟨ha, hrest⟩
    · rintro ⟨ha, hrest⟩
      rw [ha]
      exact hrest

namespace Platform

/-- A protocol list as a platform may have it. -/
structure Normalized (ps : List Protocol) : Prop where
  names : (ps.map (·.name)).Nodup
  ports : ∀ q ∈ ps, q.port ≠ 0
  primary : ∃ q ∈ ps, q.primary = true

theorem of_checkProtocols {seen : List String} {ps : List Protocol}
    (h : checkProtocols seen ps = .ok ()) :
    (ps.map (·.name)).Nodup ∧ ∀ p ∈ ps, p.name ∉ seen ∧ p.port ≠ 0 := by
  induction ps generalizing seen with
  | nil => exact ⟨.nil, by simp⟩
  | cons p rest ih =>
    unfold checkProtocols at h
    split at h
    · cases h
    · next hport =>
      split at h
      · cases h
      · next hnew =>
        obtain ⟨hnodup, hrest⟩ := ih h
        have hnew : p.name ∉ seen := fun hmem => hnew (List.contains_iff_mem.mpr hmem)
        refine ⟨List.nodup_cons.mpr ⟨fun hmem => ?_, hnodup⟩, ?_⟩
        · obtain ⟨q, hq, heq⟩ := List.mem_map.mp hmem
          exact (hrest q hq).1 (heq ▸ .head seen)
        · refine List.forall_mem_cons.mpr ⟨⟨hnew, hport⟩, fun q hq => ?_⟩
          exact ⟨fun hmem => (hrest q hq).1 (.tail _ hmem), (hrest q hq).2⟩

theorem map_promoteFirst {β : Type} {f : Protocol → β}
    (hf : ∀ q, f { q with primary := true } = f q) (ps : List Protocol) :
    (promoteFirst ps).map f = ps.map f := by
  fun_cases promoteFirst ps with
  | case1 => rfl
  | case2 => rfl
  | case3 q rest => rw [List.map_cons, List.map_cons, hf]

theorem exists_primary_promoteFirst {ps : List Protocol} (h : ps ≠ []) :
    ∃ p ∈ promoteFirst ps, p.primary = true := by
  fun_cases promoteFirst ps with
  | case1 => exact absurd rfl h
  | case2 p rest hany => exact List.any_eq_true.mp hany
  | case3 p rest => exact ⟨_, .head _, rfl⟩

theorem map_withSecretTypes {β : Type} {f : Protocol → β}
    (hf : ∀ q types, f { q with secretTypes := types } = f q) (ps : List Protocol) :
    (ps.map withSecretTypes).map f = ps.map f := by
  rw [List.map_map]
  refine List.map_congr_left fun q _ => ?_
  rw [Function.comp_apply]
  fun_cases withSecretTypes q with
  | case1 => exact hf q _
  | case2 => rfl

theorem normalized_of_normalizeProtocols {ps ps' : List Protocol}
    (h : normalizeProtocols ps = .ok ps') : Normalized ps' := by
  unfold normalizeProtocols at h
  split at h
  · cases h
  · next hne =>
    obtain ⟨_, hcheck, h⟩ := exists_of_bind_eq_ok h
    cases h
    obtain ⟨hnodup, hall⟩ := of_checkProtocols hcheck
    have hkept {β : Type} (f : Protocol → β) (hp : ∀ q, f { q with primary := true } = f q)
        (ht : ∀ q types, f { q with secretTypes := types } = f q) :
        (promoteFirst (ps.map withSecretTypes)).map f = ps.map f := by
      rw [map_promoteFirst hp, map_withSecretTypes ht]
    refine ⟨?_, fun q hq => ?_, exists_primary_promoteFirst fun hnil => hne (by simpa using hnil)⟩
    · rwa [hkept (·.name) (fun _ => rfl) fun _ _ => rfl]
    · have hport : q.port ∈ ps.map (·.port) := by
        rw [← hkept (·.port) (fun _ => rfl) fun _ _ => rfl]
        exact List.mem_map_of_mem hq
      obtain ⟨r, hr, hrq⟩ := List.mem_map.mp hport
      rw [← hrq]
      exact (hall r hr).2

theorem build_eq_ok {draft : Draft} {id : String} {now : Time.Instant} {p : Platform}
    (h : build draft id now = .ok p) :
    p.id = id ∧ p.dateCreated = now ∧ Normalized p.protocols ∧
      p.automation.ansibleConfig = draft.automation.ansibleConfig := by
  unfold build at h
  split at h
  · cases h
  · obtain ⟨ps, hps, h⟩ := exists_of_bind_eq_ok h
    obtain ⟨_, _, h⟩ := exists_of_bind_eq_ok h
    obtain ⟨su, _, h⟩ := exists_of_bind_eq_ok h
    cases h
    exact ⟨rfl, rfl, normalized_of_normalizeProtocols hps, rfl⟩

theorem normalized_of_build {draft : Draft} {id : String} {now : Time.Instant} {p : Platform}
    (h : build draft id now = .ok p) : Normalized p.protocols := (build_eq_ok h).2.2.1

theorem mem_demands_required {p : Platform} {name : String} :
    name ∈ p.demands.required ↔
      ∃ q ∈ p.protocols, (q.required || q.primary) = true ∧ q.name = name := by
  simp [demands, and_assoc]

end Platform

namespace Protocol

def bare (q : Protocol) : Protocol := ⟨q.name, q.port, q.primary, false, false, .empty⟩

/-- A protocol that carries nothing but what an entry can say. -/
def Blank (q : Protocol) : Prop := q = ⟨q.name, q.port, q.primary, false, false, .empty⟩

theorem Blank.bare_eq {q : Protocol} (h : q.Blank) : q.bare = q := h.symm

namespace Entry

theorem toProtocol_eq_ok_iff {e : Entry} {q : Protocol} :
    e.toProtocol = .ok q ↔ e.portInRange = true ∧ q.Blank ∧ ofProtocol q = e := by
  obtain ⟨name, port, primary⟩ := e
  unfold toProtocol
  constructor
  · intro h
    split at h
    · next hport =>
      cases h
      refine ⟨hport, rfl, ?_⟩
      obtain ⟨hlow, hhigh⟩ := portInRange_iff.mp hport
      have hsize : port.toNat < UInt16.size := by
        have : UInt16.size = 65536 := rfl
        simp only at hhigh
        omega
      have hread : ((UInt16.ofNat port.toNat).toNat : Int) = port := by
        rw [UInt16.toNat_ofNat_of_lt' hsize]
        simp only at hlow
        omega
      simp only [ofProtocol, hread]
    · cases h
  · rintro ⟨hport, hblank, heq⟩
    cases heq
    rw [if_pos hport]
    obtain ⟨name, port, primary, required, isDefault, secretTypes⟩ := q
    obtain ⟨-, -, -, rfl, rfl, rfl⟩ := Protocol.mk.inj hblank
    simp

theorem mapM_toProtocol {entries : List Entry} {ps : List Protocol}
    (h : entries.mapM toProtocol = .ok ps) :
    ps.map ofProtocol = entries ∧ ∀ q ∈ ps, (ofProtocol q).toProtocol = .ok q := by
  induction entries generalizing ps with
  | nil => cases h; exact ⟨rfl, by simp⟩
  | cons e rest ih =>
    rw [List.mapM_cons] at h
    obtain ⟨q, hq, h⟩ := exists_of_bind_eq_ok h
    obtain ⟨qs, hqs, h⟩ := exists_of_bind_eq_ok h
    cases h
    obtain ⟨hentries, hstored⟩ := ih hqs
    obtain ⟨-, -, heq⟩ := toProtocol_eq_ok_iff.mp hq
    rw [← heq] at hq
    exact ⟨by rw [List.map_cons, heq, hentries], List.forall_mem_cons.mpr ⟨hq, hstored⟩⟩

theorem map_name_ofProtocol (ps : List Protocol) :
    (ps.map ofProtocol).map (·.name) = ps.map (·.name) := by
  rw [List.map_map]
  rfl

end Entry

end Protocol

end Custody
