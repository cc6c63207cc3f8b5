import Custody.Proofs.Json.Shape
import Custody.Proofs.Platform.Normal

/-!
What becomes of a platform that is written as JSON and submitted again. Every record is read back
as it was written, but for a configuration that is null, which reads as none.
-/
namespace Custody

open Json

theorem Choice.decode_toJson {α : Type} [Choice α] (a : α) :
    Choice.decode (Choice.toJson a) = .ok a := by
  change Decode.choice.find (wires α) ofWire? (wire a) = _
  rw [Decode.choice.find, ofWire?_wire]

theorem Json.Decode.uint16_toNat (n : UInt16) : Decode.uint16 (.int n.toNat) = .ok n := by
  have hlt := n.toNat_lt
  rw [Decode.uint16, if_pos (by omega), Int.toNat_natCast, UInt16.ofNat_toNat]

theorem Protocol.decode_toJson (q : Protocol) : Protocol.decode q.toJson = .ok q := by
  have htypes : (Decode.list Choice.decode
      (.list (q.secretTypes.toList.map Choice.toJson))).map SecretTypes.ofList =
        .ok q.secretTypes := by
    rw [Decode.list_map fun t _ => Choice.decode_toJson t]
    exact congrArg Except.ok (SecretTypes.ofList_toList _)
  obtain ⟨name, port, primary, required, isDefault, secretTypes⟩ := q
  refine Shape.Reads.decode "Protocol" (by simp) ?_
  refine .seq (.seq (.seq (.seq (.seq (.map _ ?_) ?_) ?_) ?_) ?_) ?_
  · exact .required rfl rfl
  · exact .required rfl (Decode.uint16_toNat port)
  · exact .defaulted rfl rfl
  · exact .defaulted rfl rfl
  · exact .defaulted rfl rfl
  · exact .defaulted rfl htypes

theorem CustomField.decode_toJson (f : CustomField) : CustomField.decode f.toJson = .ok f := by
  have htexts (choices : List String) : Decode.list Decode.text (.texts choices) = .ok choices :=
    Decode.list_map fun _ _ => rfl
  obtain ⟨name, label, type, default, helpText, choices⟩ := f
  refine Shape.Reads.decode "CustomField" (by simp) ?_
  refine .seq (.seq (.seq (.seq (.seq (.map _ ?_) ?_) ?_) ?_) ?_) ?_
  · exact .required rfl rfl
  · exact .required rfl rfl
  · exact .defaulted rfl rfl
  · exact .defaulted rfl rfl
  · exact .defaulted rfl rfl
  · exact .defaulted rfl (htexts choices)

namespace Automation

def reread (a : Automation) : Automation :=
  { a with ansibleConfig := match a.ansibleConfig with
    | some .null => none
    | config => config }

theorem reread_eq {a : Automation} (h : a.ansibleConfig ≠ some .null) : a.reread = a := by
  unfold reread
  split
  · next hnull => exact absurd hnull h
  · rfl

theorem decode_toJson (a : Automation) : decode a.toJson = .ok a.reread := by
  obtain ⟨ansible, config, ping, push, facts, change, verify, gather⟩ := a
  have hconfig : Decode.option Decode.any (config.getD .null) = .ok (match config with
      | some .null => none
      | config => config) := by
    match config with
    | none => rfl
    | some .null => rfl
    | some (.bool _) | some (.int _) | some (.float _) | some (.text _) | some (.list _)
    | some (.object _) => rfl
  refine Shape.Reads.decode "Automation" (by simp) ?_
  refine .seq (.seq (.seq (.seq (.seq (.seq (.seq (.map _ ?_) ?_) ?_) ?_) ?_) ?_) ?_) ?_
  · exact .defaulted rfl rfl
  · exact .defaulted rfl hconfig
  all_goals exact .defaulted rfl rfl

theorem gives_config : shape.Gives fun a => a.ansibleConfig ≠ some .null := by
  iterate 6 refine .seq_any ?_
  refine .seq (· ≠ some .null) (.map fun _ config hconfig => ?_) (.defaulted ?_ nofun)
  · exact fun _ _ _ _ _ _ => hconfig
  · exact fun _ _ => Decode.option_any_ne_null

end Automation

namespace Platform

def reread (p : Platform) : Platform := { p with automation := p.automation.reread }

theorem Normal.reread {p : Platform} (h : p.Normal) : p.reread.Normal :=
  ⟨h.category, h.domain, h.su, h.ansible, h.suMethod, h.noSuMethod, h.protocols, h.secretTypes,
    h.customFields⟩

theorem Draft.decode_toJson (p : Platform) : Draft.decode p.toJson = .ok p.reread.resubmitted := by
  have hmethod : Decode.option Choice.decode (.ofOption Choice.toJson p.suMethod) =
      .ok p.suMethod :=
    Decode.option_ofOption fun m _ => ⟨nofun, Choice.decode_toJson m⟩
  refine Shape.Reads.decode "PlatformPayload" (by simp) ?_
  refine .seq (.seq (.seq (.seq (.seq (.seq (.seq (.seq (.seq (.seq (.map _ ?_) ?_) ?_) ?_) ?_)
    ?_) ?_) ?_) ?_) ?_) ?_
  · exact .required rfl rfl
  · exact .required rfl (Choice.decode_toJson _)
  · exact .required rfl (Choice.decode_toJson _)
  · exact .defaulted rfl (Choice.decode_toJson _)
  · exact .defaulted rfl rfl
  · exact .defaulted rfl rfl
  · exact .defaulted rfl hmethod
  · exact .defaulted rfl (Automation.decode_toJson _)
  · exact .defaulted rfl (Decode.list_map fun q _ => q.decode_toJson)
  · exact .defaulted rfl (Decode.list_map fun f _ => f.decode_toJson)
  · exact .defaulted rfl rfl

theorem Draft.gives_config : shape.Gives fun d => d.automation.ansibleConfig ≠ some .null := by
  iterate 3 refine .seq_any ?_
  refine .seq (fun a => a.ansibleConfig ≠ some .null) ?_ (.defaulted ?_ nofun)
  · iterate 6 refine .seq_any ?_
    exact .map fun _ _ _ _ _ _ _ _ hconfig _ _ _ => hconfig
  · exact fun _ _ h => Automation.gives_config.of_decode h

/-- What the checks accept, they have put into normal form: written as JSON, submitted once more and
checked once more, it is the same platform under a new id and date. Of drafts that were read from
JSON not even the configuration differs. -/
theorem build_normalizes {draft : Draft} {id : String} {now : Time.Instant} {p : Platform}
    (h : build draft id now = .ok p) : p.Normal ∧
      (∃ again, Draft.decode p.toJson = .ok again ∧ ∀ id' now',
        build again id' now' = .ok { p.reread with id := id', dateCreated := now' }) ∧
      ∀ v, Draft.decode v = .ok draft → p.reread = p := by
  have hnormal := normal_of_build h
  refine ⟨hnormal, ⟨_, Draft.decode_toJson p, build_resubmitted hnormal.reread⟩, fun v hv => ?_⟩
  have hconfig : p.automation.ansibleConfig ≠ some .null := by
    obtain ⟨-, -, -, hsame⟩ := build_eq_ok h
    exact hsame ▸ Draft.gives_config.of_decode hv
  rw [reread, Automation.reread_eq hconfig]

def sparsePayload : Value :=
  .object [("name", .text "Linux"), ("category", .text "host"), ("type", .text "linux"),
    ("su_enabled", .bool true), ("automation", .object [("ansible_enabled", .bool true)]),
    ("protocols", .list [.object [("name", .text "ssh"), ("port", .int 22)],
      .object [("name", .text "http"), ("port", .int 80)]]),
    ("custom_fields", .list [.object [("name", .text "zone_1"), ("label", .text "Zone"),
      ("type", .text "choice"), ("choices", .texts ["north", "south"])]])]

def sparseDraft : Draft :=
  ⟨"Linux", .host, .linux, .utf8, false, true, none,
    { Automation.off with ansibleEnabled := true },
    [⟨"ssh", 22, false, false, false, .empty⟩, ⟨"http", 80, false, false, false, .empty⟩],
    [⟨"zone_1", "Zone", "choice", "", "", ["north", "south"]⟩], ""⟩

def sparsePlatform : Platform :=
  ⟨"p1", "Linux", .host, .linux, .utf8, false, true, some .sudo,
    { Automation.off with ansibleEnabled := true },
    [⟨"ssh", 22, true, false, false, .ofList [.password, .sshKey]⟩,
      ⟨"http", 80, false, false, false, .ofList [.password, .apiKey]⟩],
    [⟨"zone_1", "Zone", "choice", "", "", ["north", "south"]⟩], "", ⟨0, 0⟩⟩

theorem build_normalizes_sparse : Draft.decode sparsePayload = .ok sparseDraft ∧
    build sparseDraft "p1" ⟨0, 0⟩ = .ok sparsePlatform ∧ sparsePlatform.Normal ∧
    ∃ again, Draft.decode sparsePlatform.toJson = .ok again ∧ ∀ id' now',
      build again id' now' = .ok { sparsePlatform with id := id', dateCreated := now' } := by
  have hdecode : Draft.decode sparsePayload = .ok sparseDraft := rfl
  have hbuild : build sparseDraft "p1" ⟨0, 0⟩ = .ok sparsePlatform := rfl
  obtain ⟨hnormal, hagain, hsame⟩ := build_normalizes hbuild
  rw [hsame _ hdecode] at hagain
  exact ⟨hdecode, hbuild, hnormal, hagain⟩

end Platform

end Custody
