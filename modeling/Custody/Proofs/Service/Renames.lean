import Custody.Proofs.Bulk.Names
import Custody.Proofs.Service.Outbox

/-!
What the accounts that a bulk finds are called behind it. A payload is read before anything is
drawn or written, so a bulk from a payload is one of the candidate and the targets that it says.
-/
namespace Custody

open Run Store

namespace Service

variable {σ : Type} [Store σ] {good : σ → Prop} {dated : Time.Instant → Time.Instant}
  {queue : σ → List Push} {kept : Push → Push}

def readBulk (payload : Json.Object) : Run σ (Controls × Candidate × List Bulk.Target) := do
  let (controls, payload) ← Run.of (Controls.take payload)
  let ids ← Run.of (assetIds payload)
  let (values, templateId) ←
    withTemplate controls.template Field.bulkSchema (payload.erase "assets")
  Run.of (Field.check Field.bulkSchema values)
  let username ← Run.of (requiredText values "username")
  let name := ((text? values "name").filter (· ≠ "")).getD username
  let candidate ← Run.of (candidateOf values "" name username none templateId)
  let targets ← ids.mapM Bulk.Target.load
  return (controls, candidate, targets)

theorem bulkCreateAccounts_eq (payload : Json.Object) (policy : Policy) :
    (bulkCreateAccounts payload policy : Run σ _) =
      readBulk payload >>= fun (controls, c, targets) =>
        Run.draw >>= fun d => storeBulk controls c targets policy d.now := by
  simp only [bulkCreateAccounts, readBulk, bind_assoc, pure_bind]
  rfl

theorem readBulk_within (payload : Json.Object) :
    Within (fun w w' : World σ => w' = w) (readBulk payload) := by
  have hP : Preorder fun w w' : World σ => w' = w := ⟨fun _ => rfl, fun h h' => h'.trans h⟩
  refine .bind hP (.of hP _) fun ⟨controls, rest⟩ => .bind hP (.of hP _) fun ids => ?_
  refine .bind hP (withTemplate_within hP _ _ _) fun ⟨values, templateId⟩ => ?_
  refine .bind hP (.of hP _) fun _ => .bind hP (.of hP _) fun username => ?_
  refine .bind hP (.of hP _) fun candidate => ?_
  exact .bind hP (.mapM hP (Bulk.Target.load_within hP) ids) fun _ => .pure hP _

theorem storeBulk_leavesNames (hd : Decided good dated) (hq : Queueing queue kept)
    (hrefuses : RefusesRivals good) (controls : Controls) (c : Candidate)
    (targets : List Bulk.Target) (policy : Policy) (now : Time.Instant) {w : World σ}
    (hs : good w.store) :
    Returns (storeBulk controls c targets policy now) w fun report w' =>
      Bulk.LeavesNames c targets w.supply report w.store w'.store := by
  refine (Bulk.createDrawing_leavesNames hd hq.seamless hrefuses c targets _ hs).followed ?_
  intro report w' hleaves
  have hpushed : Returns (pushIfAsked controls (changedIds report) now) w' fun _ w'' =>
      account? w''.store = account? w'.store := by
    unfold pushIfAsked
    split
    · exact .ok rfl (hq.account? _ _ _)
    · exact .pure rfl
  refine hpushed.followed fun _ w'' hsame => .pure fun a ha => ?_
  rw [hsame]
  exact hleaves a ha

theorem bulkCreateAccounts_leavesNames (hd : Decided good dated) (hq : Queueing queue kept)
    (hrefuses : RefusesRivals good) (payload : Json.Object) (policy : Policy) {w : World σ}
    (hs : good w.store) :
    Returns (bulkCreateAccounts payload policy) w fun report w' =>
      ∃ controls c targets, readBulk payload w = (.ok (controls, c, targets), w) ∧
        Bulk.LeavesNames c targets { w.supply with used := w.supply.used + 1 } report w.store
          w'.store := by
  rw [bulkCreateAccounts_eq]
  have hsame := readBulk_within payload w
  cases hread : readBulk payload w with
  | mk r w' =>
    obtain rfl : w' = w := by rwa [hread] at hsame
    cases r with
    | error e => exact .bind (.failed hread trivial)
    | ok read =>
      obtain ⟨controls, c, targets⟩ := read
      have hstored (d : Draw) (supply : Supply) :=
        storeBulk_leavesNames (w := ⟨w'.store, supply⟩) hd hq hrefuses controls c targets policy
          d.now hs
      refine .bind (.ok hread (.bind (.draw ((hstored _ _).mono ?_))))
      exact fun report w'' hleaves => ⟨controls, c, targets, rfl, hleaves⟩

/-- Under this policy and with these draws, the bulks of a store leave the names of the accounts
that they find as `Bulk.LeavesNames` says, whether they are given the candidate and the targets or
a payload that says them. -/
structure NamesLast (policy : Policy) (supply : Supply) (s : σ) : Prop where
  given : ∀ c targets report w',
    Bulk.createDrawing c targets policy ⟨s, supply⟩ = (.ok report, w') →
    Bulk.LeavesNames c targets supply report s w'.store
  read : ∀ payload report w',
    bulkCreateAccounts payload policy ⟨s, supply⟩ = (.ok report, w') →
    ∃ controls c targets,
      readBulk payload ⟨s, supply⟩ = (.ok (controls, c, targets), ⟨s, supply⟩) ∧
      Bulk.LeavesNames c targets { supply with used := supply.used + 1 } report s w'.store

theorem namesLast (hd : Decided good dated) (hq : Queueing queue kept)
    (hrefuses : RefusesRivals good) {s : σ} (hs : good s) (policy : Policy) (supply : Supply) :
    NamesLast policy supply s where
  given c targets _ _ h :=
    (Bulk.createDrawing_leavesNames hd hq.seamless hrefuses c targets policy hs).of_value h
  read payload _ _ h :=
    (bulkCreateAccounts_leavesNames hd hq hrefuses payload policy hs).of_value h

/-- Whatever calls a store has seen: of the accounts that a bulk finds, none gets another name than
the candidate's, but for a slot's holder that is updated while that name is another account's. -/
theorem found_names_last (policy : Policy) (supply : Supply) :
    (∀ entries (m : Memory), Reachable Memory.empty entries m → NamesLast policy supply m) ∧
    ∀ clock entries (s : Relational), Reachable (Relational.empty clock) entries s →
      NamesLast policy supply s := by
  refine ⟨fun entries m hm => ?_, fun clock entries s hs => ?_⟩
  · exact namesLast Memory.decided Memory.queueing Memory.refusesRivals
      (sound_of_reachable hm) policy supply
  · exact namesLast (Relational.decided s.clock) Relational.queueing
      (Relational.refusesRivals s.clock) (Relational.kept_of_reachable hs) policy supply

def passedOn : List Operation := hostOperations ++ [
  .updateAccount "iiii" [("name", .text "ops")],
  .createAccount [("asset", .text "ii"), ("name", .text "root"), ("username", .text "deploy")]
    .error]

def passedOnMemory : World Memory := after passedOn ⟨Memory.empty, countedDraws, 0⟩

def passedOnTables : World Relational := after passedOn ⟨Relational.empty ⟨0, 0⟩, countedDraws, 0⟩

def rootOn : Json.Object := [("assets", .list [.text "ii"]), ("username", .text "root")]

theorem found_names_last_passedOn :
    (Reachable Memory.empty [] passedOnMemory.store ∧
      NamesLast .update passedOnMemory.supply passedOnMemory.store ∧
      (bulkCreateAccounts rootOn .update passedOnMemory).1.isOk) ∧
    Reachable (Relational.empty ⟨0, 0⟩) [] passedOnTables.store ∧
      NamesLast .update passedOnTables.supply passedOnTables.store ∧
      (bulkCreateAccounts rootOn .update passedOnTables).1.isOk := by
  have hm : Reachable Memory.empty [] passedOnMemory.store := after_reachable passedOn .start
  have hs : Reachable (Relational.empty ⟨0, 0⟩) [] passedOnTables.store :=
    after_reachable passedOn .start
  refine ⟨⟨hm, (found_names_last _ _).1 _ _ hm, ?_⟩, hs, (found_names_last _ _).2 _ _ _ hs, ?_⟩
  all_goals
    simp only [bulkCreateAccounts, Bulk.createDrawing, Bulk.create, Bulk.conclude_eq]
    decide +kernel

/-- The holder of the slot is not created, and still it gets the name with the token. -/
theorem token_name_for_found :
    (Reachable Memory.empty [] passedOnMemory.store ∧
      (account? passedOnMemory.store "iiii").map (·.name) = some "ops" ∧
      (bulkCreateAccounts rootOn .update passedOnMemory).1.isOk ∧
      (account? (bulkCreateAccounts rootOn .update passedOnMemory).2.store "iiii").map (·.name) =
        some "root_token") ∧
    Reachable (Relational.empty ⟨0, 0⟩) [] passedOnTables.store ∧
      (account? passedOnTables.store "iiii").map (·.name) = some "ops" ∧
      (bulkCreateAccounts rootOn .update passedOnTables).1.isOk ∧
      (account? (bulkCreateAccounts rootOn .update passedOnTables).2.store "iiii").map (·.name) =
        some "root_token" := by
  refine ⟨⟨after_reachable passedOn .start, ?_⟩, after_reachable passedOn .start, ?_⟩
  all_goals
    simp only [bulkCreateAccounts, Bulk.createDrawing, Bulk.create, Bulk.conclude_eq]
    decide +kernel

end Service

end Custody
