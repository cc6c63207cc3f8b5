import Custody.Proofs.Store.Holders

/-!
A candidate reconciled twice. The second run meets the account that came of the first, whichever
way the first had found it, and has nothing to tell it: skipping leaves the store alone, and a
rewriting moves the date of the account's last update and no more.
-/
namespace Custody

open Run Store

namespace Candidate

variable {c : Candidate} {a : Account}

structure CarriedBy (c : Candidate) (a : Account) : Prop where
  name : a.name = c.name
  username : a.username = c.username
  secretType : a.secretType = c.secretType
  source : a.source = c.source
  sourceId : a.sourceId = c.sourceId
  secret : ∀ s, c.secret = some s → a.secret = some s
  privileged : ∀ b, c.privileged = some b → a.privileged = b
  isActive : ∀ b, c.isActive = some b → a.isActive = b
  comment : ∀ s, c.comment = some s → a.comment = s
  suFrom : ∀ s, c.suFrom = some s → a.suFrom = some s

theorem carriedBy_toAccount (c : Candidate) (id : String) (now : Time.Instant) :
    c.CarriedBy (c.toAccount id now) where
  name := rfl
  username := rfl
  secretType := rfl
  source := rfl
  sourceId := rfl
  secret _ h := h
  privileged b h := by simp [toAccount, h]
  isActive b h := by simp [toAccount, h]
  comment s h := by simp [toAccount, h]
  suFrom _ h := h

theorem Overwrites.carriedBy {old : Account} {now : Time.Instant} (h : c.Overwrites now old a) :
    c.CarriedBy a where
  name := h.name
  username := h.username
  secretType := h.secretType
  source := h.source
  sourceId := h.sourceId
  secret s hs := by rw [h.secret, hs, Option.some_or]
  privileged b hb := by rw [h.privileged, hb, Option.getD_some]
  isActive b hb := by rw [h.isActive, hb, Option.getD_some]
  comment s hs := by rw [h.comment, hs, Option.getD_some]
  suFrom s hs := by rw [h.suFrom, hs, Option.some_or]

theorem carriedBy_applyTo (c : Candidate) (a : Account) (now : Time.Instant) :
    c.CarriedBy (c.applyTo a now) := (c.applyTo_overwrites a now).carriedBy

theorem eq_getD {α : Type} {given : Option α} {kept : α} (h : ∀ v, given = some v → kept = v) :
    kept = given.getD kept := by
  cases given with
  | none => rfl
  | some v => exact h v rfl

theorem eq_or {α : Type} {given kept : Option α} (h : ∀ v, given = some v → kept = some v) :
    kept = given.or kept := by
  cases given with
  | none => rfl
  | some v => exact h v rfl

theorem CarriedBy.redated (h : c.CarriedBy a) (f : Time.Instant → Time.Instant) :
    c.CarriedBy (a.redated f) := { h with }

theorem CarriedBy.applyTo (h : c.CarriedBy a) (now : Time.Instant) :
    c.applyTo a now = a.updatedAt now := by
  have hoverwrites : c.Overwrites now a (a.updatedAt now) := {
    id := rfl
    assetId := rfl
    name := h.name
    username := h.username
    secretType := h.secretType
    source := h.source
    sourceId := h.sourceId
    secret := eq_or h.secret
    version := (if_pos rfl).symm
    privileged := eq_getD h.privileged
    isActive := eq_getD h.isActive
    comment := eq_getD h.comment
    suFrom := eq_or h.suFrom
    dateCreated := rfl
    dateUpdated := rfl }
  exact hoverwrites.eq_applyTo.symm

section Runs

variable {σ : Type} [Store σ] {good : σ → Prop} {dated : Time.Instant → Time.Instant}
  {lookup : Lookup} {policy : Policy} {id : String} {now : Time.Instant} {s s' : σ} {o : Outcome}

/-- What a reconciliation that returned this has done: it met the account and left it, or it wrote
the account, a new one or the one that it met. -/
inductive Landed (dated : Time.Instant → Time.Instant) (c : Candidate) (lookup : Lookup) (s : σ) :
    σ → Account → Outcome → Prop
  | met {a : Account} : c.existing? lookup s = some a → Landed dated c lookup s s a .skipped
  | created {s' : σ} (id : String) (now : Time.Instant) : c.existing? lookup s = none →
    Holder dated s s' (c.toAccount id now) →
    Landed dated c lookup s s' (c.toAccount id now) .created
  | updated {s' : σ} (old : Account) (now : Time.Instant) : c.existing? lookup s = some old →
    old.assetId = c.assetId → Holder dated s s' (c.applyTo old now) →
    Landed dated c lookup s s' (c.applyTo old now) .updated

theorem reconcile_landed (h : Holding good dated) (c : Candidate) (lookup : Lookup)
    (policy : Policy) (id : String) (now : Time.Instant) {w : World σ} (hs : good w.store) :
    Ends (c.reconcile lookup policy id now) w
      (fun r w' => w'.supply = w.supply ∧ good w'.store ∧
        c.Landed dated lookup w.store w'.store r.1 r.2)
      fun _ w' => w' = w := by
  refine .bind (.ask ?_)
  cases hfound : c.existing? lookup w.store with
  | none =>
    refine .bind (.write (fun _ s' hins => .pure ?_) fun e s' hins => ?_)
    · exact ⟨rfl, (h.bookkeeping.insert hs hins).1, .created id now hfound (h.insert hs hins)⟩
    · rw [h.bookkeeping.insert_error hins]
  | some old =>
    obtain ⟨hasset, hold⟩ := h.bookkeeping.existing? hs (h.name hs) hfound
    have hnew := c.applyTo_rewritten old now
    cases policy with
    | skip => exact .pure ⟨rfl, hs, .met hfound⟩
    | error => exact .throw rfl
    | update =>
      refine .bind (.write (fun _ s' hupd => .pure ?_) fun e s' hupd => ?_)
      · have hupdate := h.bookkeeping.update hs (hnew.id ▸ hold) hnew.assetId hnew.dateCreated hupd
        exact ⟨rfl, hupdate.1, .updated old now hfound hasset
          (h.update hs (hnew.id ▸ hold) hnew.assetId hnew.dateCreated hupd)⟩
      · rw [h.bookkeeping.update_error hupd]

/-- What the candidate comes to, from now on, where it has come to this stored account. -/
structure Repeats (dated : Time.Instant → Time.Instant) (c : Candidate) (lookup : Lookup)
    (o : Outcome) (s : σ) (a : Account) : Prop where
  stored : Stored s a
  skipped : ∀ id now supply, (c.reconcile lookup .skip id now : Run σ _) ⟨s, supply⟩ =
    (.ok (a, .skipped), ⟨s, supply⟩)
  updated : o = .created ∨ o = .updated → ∀ id now, ∃ s',
    (∀ supply, (c.reconcile lookup .update id now : Run σ _) ⟨s, supply⟩ =
      (.ok (a.updatedAt now, .updated), ⟨s', supply⟩)) ∧
    account? s' = Function.update (account? s) a.id (some (a.updatedAt (dated now)))

theorem repeats_of_holder (h : Holding good dated) (hs' : good s') (hcarried : c.CarriedBy a)
    (hasset : a.assetId = c.assetId) (hholder : Holder dated s s' a) (lookup : Lookup)
    (o : Outcome) : c.Repeats dated lookup o s' (a.redated dated) := by
  -- The account that was written is met by its slot, which comes before any name.
  have hslot := hholder.slot
  rw [hasset, hcarried.username, hcarried.secretType] at hslot
  have hmet : c.existing? lookup s' = some (a.redated dated) := by
    unfold existing?
    rw [hslot]
  have hstored := (h.bookkeeping.slot hs' hslot).2
  refine ⟨hstored, fun id now => reconcile_of_some .skip id now hmet, fun _ id now => ?_⟩
  have hrun := reconcile_of_some .update id now hmet
  simp only [(hcarried.redated dated).applyTo now] at hrun
  cases hupd : updateAccount ((a.redated dated).updatedAt now) s' with
  | mk r s'' =>
    obtain rfl : r = .ok () := (congrArg Prod.fst hupd).symm.trans (hholder.again now)
    rw [hupd] at hrun
    have hafter := Accounts.eq_update (h.bookkeeping.update
      (a := (a.redated dated).updatedAt now) hs' hstored rfl rfl hupd).2
    have hdated : ((a.redated dated).updatedAt now).redated dated =
        (a.redated dated).updatedAt (dated now) :=
      congrArg (·.updatedAt (dated now)) (h.bookkeeping.reread hstored hs')
    rw [hdated] at hafter
    exact ⟨s'', hrun, hafter⟩

theorem Landed.repeats (h : Holding good dated) (hs' : good s')
    (hlanded : c.Landed dated lookup s s' a o) :
    ∃ b, b.id = a.id ∧ c.Repeats dated lookup o s' b := by
  cases hlanded with
  | met hmet =>
    refine ⟨a, rfl, (h.bookkeeping.existing? hs' (h.name hs') hmet).2, fun id now => ?_, nofun⟩
    exact reconcile_of_some .skip id now hmet
  | created id now _ hholder =>
    refine ⟨(c.toAccount id now).redated dated, rfl, ?_⟩
    exact repeats_of_holder h hs' (c.carriedBy_toAccount id now) rfl hholder lookup _
  | updated old now _ hasset hholder =>
    have hsame := (c.applyTo_rewritten old now).assetId.trans hasset
    refine ⟨(c.applyTo old now).redated dated, rfl, ?_⟩
    exact repeats_of_holder h hs' (c.carriedBy_applyTo old now) hsame hholder lookup _

end Runs

end Candidate

/-- Whatever came of a candidate on a store that keeps its accounts apart by their ids, be it under
whichever policy and look-up: running it again skips the account that came of it and leaves the
store as it is, and updating it, where it was created or updated, moves the date of its last update
and nothing else. -/
theorem reconcile_repeats (c : Candidate) (lookup : Lookup) (policy : Policy) (id : String)
    (now : Time.Instant) (a : Account) (o : Outcome) :
    (∀ w w' : World Memory, w.store.records.Filed →
      c.reconcile lookup policy id now w = (.ok (a, o), w') →
      ∃ b, b.id = a.id ∧ c.Repeats (fun date => date) lookup o w'.store b) ∧
    ∀ w w' : World Relational, w.store.tables.Keys →
      c.reconcile lookup policy id now w = (.ok (a, o), w') →
      ∃ b, b.id = a.id ∧ c.Repeats (Tables.readDate w.store.clock) lookup o w'.store b := by
  constructor
  · intro w w' hfiled hrun
    obtain ⟨-, hfiled', hlanded⟩ := (c.reconcile_landed Memory.holding lookup policy id now
      hfiled).of_value hrun
    exact hlanded.repeats Memory.holding hfiled'
  · intro w w' hkeys hrun
    obtain ⟨-, hkeys', hlanded⟩ := (c.reconcile_landed (Relational.holding w.store.clock) lookup
      policy id now ⟨hkeys, rfl⟩).of_value hrun
    exact hlanded.repeats (Relational.holding w.store.clock) hkeys'

def movingCandidate : Candidate := { squeezedCandidate with username := "deploy" }

theorem reconcile_repeats_moving :
    let supply : Supply := ⟨fun _ => ⟨"third", "fourth", "token", ⟨0, 0⟩⟩, 0⟩
    let m : Memory := renamedCalls.foldl (fun m c => (c.run m).2) (Store.enter Memory.empty)
    let s : Relational := renamedCalls.foldl (fun s c => (c.run s).2)
      (Store.enter (Relational.empty ⟨0, 0⟩))
    let moved := movingCandidate.applyTo nameHolder ⟨1, 0⟩
    (∃ w', movingCandidate.reconcile .nameOrSlot .update "third" ⟨1, 0⟩ ⟨m, supply⟩ =
        (.ok (moved, .updated), w') ∧
      ∃ b, b.id = "second" ∧
        movingCandidate.Repeats (fun date => date) .nameOrSlot .updated w'.store b) ∧
    ∃ w', movingCandidate.reconcile .nameOrSlot .update "third" ⟨1, 0⟩ ⟨s, supply⟩ =
        (.ok (moved, .updated), w') ∧
      ∃ b, b.id = "second" ∧
        movingCandidate.Repeats (Tables.readDate ⟨0, 0⟩) .nameOrSlot .updated w'.store b := by
  intro supply m s moved
  have hm := (Reachable.start : Reachable Memory.empty [] _).enter.calls renamedCalls
  have hs := (Reachable.start : Reachable (Relational.empty ⟨0, 0⟩) [] _).enter.calls renamedCalls
  have h := reconcile_repeats movingCandidate .nameOrSlot .update "third" ⟨1, 0⟩ moved .updated
  exact ⟨⟨_, rfl, h.1 ⟨m, supply⟩ _ (filed_of_reachable hm) rfl⟩, _, rfl,
    h.2 ⟨s, supply⟩ _ (keys_of_reachable hs) rfl⟩

end Custody
