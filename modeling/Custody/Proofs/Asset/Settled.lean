import Custody.Proofs.Protocol.Validation
import Custody.Proofs.Sorted

/-!
An asset's protocols as they are stored. Validation under the platform has nothing left to do on
them, and sorting them by name takes nothing of this away.
-/
namespace Custody

namespace Asset

theorem sortProtocols_perm (ps : List Protocol) : (sortProtocols ps).Perm ps :=
  List.mergeSort_perm _ _

theorem pairwise_sortProtocols (ps : List Protocol) :
    (sortProtocols ps).Pairwise fun a b => a.name ≤ b.name := by
  have hsorted : (sortProtocols ps).Pairwise fun a b => decide (a.name ≤ b.name) = true :=
    List.pairwise_mergeSort (fun a b c => linear_text.trans a.name b.name c.name)
      (fun a b => linear_text.total a.name b.name) ps
  exact hsorted.imp of_decide_eq_true

/-- A stored protocol list that the platform has no objection to. -/
structure Settled (p : Platform) (ps : List Protocol) : Prop where
  valid : p.demands.validate (ps.map Protocol.Entry.ofProtocol) =
    .ok (ps.map Protocol.Entry.ofProtocol)
  stored : ∀ q ∈ ps, (Protocol.Entry.ofProtocol q).toProtocol = .ok q
  names : (ps.map (·.name)).Nodup
  sorted : ps.Pairwise fun a b => a.name ≤ b.name
  ports : ∀ q ∈ ps, 1 ≤ q.port.toNat ∧ q.port.toNat ≤ 65535
  demanded : ∀ r ∈ p.protocols, r.required = true ∨ r.primary = true → ∃ q ∈ ps, q.name = r.name
  primary : ∃ q ∈ ps, q.primary = true

theorem settled_of_validate {p : Platform} (hp : ∃ r ∈ p.protocols, r.primary = true)
    {entries validated : List Protocol.Entry} (hvalid : p.demands.validate entries = .ok validated)
    {ps : List Protocol} (hps : validated.mapM Protocol.Entry.toProtocol = .ok ps) :
    Settled p (sortProtocols ps) := by
  obtain ⟨hentries, hstored⟩ := Protocol.Entry.mapM_toProtocol hps
  have hperm := sortProtocols_perm ps
  have hrequired : p.demands.required ≠ [] := by
    obtain ⟨r, hr, hprimary⟩ := hp
    have hmem := Platform.mem_demands_required.mpr ⟨r, hr, by simp [hprimary], rfl⟩
    exact List.ne_nil_of_mem hmem
  have hmet : p.demands.Met ((sortProtocols ps).map Protocol.Entry.ofProtocol) := by
    refine (Protocol.Demands.met_of_validate hrequired hvalid).perm ?_
    rw [← hentries]
    exact (hperm.map _).symm
  have hback (q : Protocol) (hq : q ∈ sortProtocols ps) :
      (Protocol.Entry.ofProtocol q).toProtocol = .ok q := hstored q (hperm.mem_iff.mp hq)
  have hnames := hmet.names
  rw [Protocol.Entry.map_name_ofProtocol] at hnames
  refine ⟨hmet.validate, hback, hnames, pairwise_sortProtocols ps, fun q hq => ?_, ?_, ?_⟩
  · obtain ⟨hport, -, -⟩ := Protocol.Entry.toProtocol_eq_ok_iff.mp (hback q hq)
    have hbounds : (1 : Int) ≤ q.port.toNat ∧ (q.port.toNat : Int) ≤ 65535 :=
      Protocol.Entry.portInRange_iff.mp hport
    omega
  · intro r hr hdemand
    have hmem := Platform.mem_demands_required.mpr ⟨r, hr, by simpa using hdemand, rfl⟩
    have hname := hmet.required r.name hmem
    rw [Protocol.Entry.map_name_ofProtocol] at hname
    exact List.mem_map.mp hname
  · obtain ⟨e, he, hprimary⟩ := List.any_eq_true.mp hmet.primary
    obtain ⟨q, hq, rfl⟩ := List.mem_map.mp he
    exact ⟨q, hq, hprimary⟩

end Asset

end Custody
