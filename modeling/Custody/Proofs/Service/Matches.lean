import Custody.Proofs.Service.Names

/-!
Whom the creation of an account without a name meets: the holder of its slot. But where the slot is
free and the username is taken as a name, the name that is chosen instead is looked up like one that
was asked for, and an account that happens to have it is taken for the account to be created.
-/
namespace Custody

open Run Store

variable {σ : Type} [Store σ] {good : σ → Prop} {dated : Time.Instant → Time.Instant}
  {queue : σ → List Push} {kept : Push → Push} {s s' : σ} {e : Account}

/-- The stored accounts that are met are the one that is returned, and the one that is returned is
new if there are none. Only this one is another one afterwards, and not if it was skipped. -/
structure Encounter {σ : Type} [Store σ] (met : Account → Prop) (s : σ) (r : Account × Outcome)
    (s' : σ) : Prop where
  met : ∀ e, Stored s e → (r.1.id = e.id ↔ met e)
  created : r.2 = .created ↔ account? s r.1.id = none
  skipped : r.2 = .skipped → Stored s r.1 ∧ account? s' = account? s
  others : ∀ id, id ≠ r.1.id → account? s' id = account? s id

namespace Encounter

variable {met met' : Account → Prop} {r : Account × Outcome}

theorem congr (h : ∀ e, Stored s e → (met e ↔ met' e)) (hmet : Encounter met s r s') :
    Encounter met' s r s' :=
  { hmet with met := fun e he => (hmet.met e he).trans (h e he) }

theorem of_new (hnone : ∀ e, Stored s e → ¬ met e) (hnew : account? s r.1.id = none)
    (houtcome : r.2 = .created) (h : ∀ id, id ≠ r.1.id → account? s' id = account? s id) :
    Encounter met s r s' where
  met e he := by
    refine iff_of_false (fun hid => ?_) (hnone e he)
    rw [Stored, ← hid, hnew] at he
    cases he
  created := iff_of_true houtcome hnew
  skipped hskipped := by
    rw [houtcome] at hskipped
    cases hskipped
  others := h

theorem of_stored (he : Stored s e) (hmet : ∀ b, Stored s b → (met b ↔ b = e))
    (hid : r.1.id = e.id) (houtcome : r.2 ≠ .created)
    (hskipped : r.2 = .skipped → r.1 = e ∧ account? s' = account? s)
    (h : ∀ id, id ≠ e.id → account? s' id = account? s id) : Encounter met s r s' where
  met b hb := by
    rw [hmet b hb, hid]
    refine ⟨fun heq => ?_, fun heq => heq ▸ rfl⟩
    rw [Stored, ← heq] at hb
    exact Option.some.inj (hb.symm.trans he)
  created := iff_of_false houtcome (by rw [hid, show account? s e.id = some e from he]; simp)
  skipped hskip := ⟨(hskipped hskip).1 ▸ he, (hskipped hskip).2⟩
  others id hne := h id (hid ▸ hne)

end Encounter

theorem Candidate.meets_iff_eq (hd : Decided good dated) (hs : good s) {c : Candidate}
    (he : c.Meets s e) {b : Account} : c.Meets s b ↔ b = e := by
  refine ⟨fun hb => ?_, fun hb => hb ▸ he⟩
  exact Option.some.inj ((existing?_eq_some_of_meets hd hs hb).symm.trans
    (existing?_eq_some_of_meets hd hs he))

theorem Candidate.Free.not_meets {c : Candidate} (h : c.Free s) : ¬ c.Meets s e := by
  rintro ⟨he, hfills | ⟨hnames, -⟩⟩
  · exact (h e he).1 hfills
  · exact (h e he).2 hnames

namespace Candidate

theorem reconcile_encounters (hd : Decided good dated) {w : World σ} (hs : good w.store)
    (c : Candidate) (policy : Policy) (id : String) (now : Time.Instant) :
    Returns (c.reconcile .nameOrSlot policy id now) w fun r w' =>
      Encounter (c.Meets w.store) w.store r w'.store := by
  rcases c.free_or_meets w.store with hfree | ⟨e, he⟩
  · have hnone := existing?_eq_none_of_free hd hs hfree
    cases hins : Store.insertAccount (c.toAccount id now) w.store with
    | mk result s' =>
      cases result with
      | error err => exact .failed (reconcile_of_none hnone hins w.supply) trivial
      | ok _ =>
        obtain ⟨-, hfresh, hafter⟩ := hd.bookkeeping.insert hs hins
        refine .ok (reconcile_of_none hnone hins w.supply) ?_
        refine .of_new (fun e _ => hfree.not_meets) hfresh rfl fun i hne => ?_
        exact (hafter i).trans (if_neg hne)
  · have hmet (b : Account) (_ : Stored w.store b) : c.Meets w.store b ↔ b = e :=
      meets_iff_eq hd hs he
    have hrun := reconcile_of_some policy id now (existing?_eq_some_of_meets hd hs he) w.supply
    cases policy with
    | error => exact .failed hrun trivial
    | skip =>
      exact .ok hrun (.of_stored he.1 hmet rfl nofun (fun _ => ⟨rfl, rfl⟩) fun _ _ => rfl)
    | update =>
      cases hupd : Store.updateAccount (c.applyTo e now) w.store with
      | mk result s' =>
        rw [hupd] at hrun
        cases result with
        | error err => exact .failed hrun trivial
        | ok _ =>
          have hafter := account?_of_update hd hs he.1 hupd
          have hid := (c.applyTo_rewritten e now).id
          refine .ok hrun (.of_stored he.1 hmet hid nofun nofun fun i hne => ?_)
          exact (congrFun hafter i).trans (Function.update_of_ne hne ..)

end Candidate

namespace Service

variable {payload : Json.Object}

/-- Nobody has the slot. The account has what the payload, whose username is taken as a name, is to
be called with the token. -/
structure Mistaken (s : σ) (payload : Json.Object) (token : String) (e : Account) : Prop where
  vacant : ∀ b, Stored s b → ¬ HoldsSlot payload b
  asset : text? payload "asset" = some e.assetId
  name : ∃ username, text? payload "username" = some username ∧
    NameTaken s e.assetId username ∧ e.name = username ++ "_" ++ token

theorem storeCandidate_encounters (hd : Decided good dated) (hq : Queueing queue kept)
    {w : World σ} (hs : good w.store) (c : Candidate) {rest : Json.Object} {controls : Controls}
    (htake : Controls.take payload = .ok (controls, rest)) (policy : Policy) (d : Draw) :
    Returns (storeCandidate controls c d policy) w fun r w' =>
      Encounter (c.Meets w.store) w.store r w'.store := by
  unfold storeCandidate
  rw [hq.seamless.reconcile]
  refine (c.reconcile_encounters hd hs _ _ _).followed fun r w' hmet => ?_
  dsimp only
  split
  · refine .bind (pushIfAsked_queues hq htake _ _ fun w'' _ hsame => .pure ?_)
    exact { hmet with
      skipped := fun h => ⟨(hmet.skipped h).1, hsame.trans (hmet.skipped h).2⟩
      others := fun id hne => (congrFun hsame id).trans (hmet.others id hne) }
  · exact .pure hmet

/-- A candidate without a name of its own meets an account by name only if that name has come about
with the token. -/
theorem Describes.names_iff (hd : Decided good dated) (hs : good s) {values : Json.Object}
    {token : String} {c : Candidate} (hc : Describes values s token c)
    (hunset : (text? values "name").filter (· ≠ "") = none) (he : Stored s e) :
    c.Names e ↔ e.assetId = c.assetId ∧ NameTaken s c.assetId c.username ∧
      e.name = c.username ++ "_" ++ token := by
  rw [Candidate.Names, Account.hasName_iff, hc.name]
  by_cases htaken : NameTaken s c.assetId c.username
  · rw [Naming.choose_of_taken hd hs hunset htaken]
    exact and_congr_right fun _ => (and_iff_right htaken).symm
  · rw [Naming.choose_of_free hd hs hunset htaken]
    refine iff_of_false (fun hnames => htaken ⟨e, he, ?_⟩) fun h => htaken h.2.1
    exact Account.hasName_iff.mpr hnames

theorem Describes.meets_iff (hd : Decided good dated) (hs : good s) {values : Json.Object}
    {token : String} {c : Candidate} (hc : Describes values s token c)
    (htext : ∀ key ∉ controlNames, text? values key = text? payload key)
    (hunset : (text? values "name").filter (· ≠ "") = none) (he : Stored s e) :
    c.Meets s e ↔ HoldsSlot payload e ∨ Mistaken s payload token e := by
  have hasset := (htext "asset" (by decide)).symm.trans hc.asset
  have husername := (htext "username" (by decide)).symm.trans hc.username
  unfold Candidate.Meets
  simp only [hc.fills_iff htext, hc.names_iff hd hs hunset he]
  rw [and_iff_right he]
  refine or_congr_right ⟨?_, ?_⟩
  · rintro ⟨⟨h₁, htaken, hname⟩, hvacant⟩
    exact ⟨hvacant, h₁ ▸ hasset, _, husername, h₁ ▸ htaken, hname⟩
  · rintro ⟨hvacant, h₁, username, h₂, htaken, hname⟩
    obtain rfl := Option.some.inj (h₂.symm.trans husername)
    have h₁ := Option.some.inj (h₁.symm.trans hasset)
    exact ⟨⟨h₁, h₁ ▸ htaken, hname⟩, hvacant⟩

theorem createAccount_encounters (hd : Decided good dated) (hq : Queueing queue kept)
    {w : World σ} (hs : good w.store) (hname : Unset payload "name")
    (htemplate : Unset payload "template") (policy : Policy) :
    Returns (createAccount payload policy) w fun r w' =>
      Encounter (fun e => HoldsSlot payload e ∨
        Mistaken w.store payload (w.supply.draws w.supply.used).token e) w.store r w'.store := by
  refine createAccount_unnamed hname htemplate fun controls rest values c w' htake htext hunset hc
    hsame => ?_
  rw [← hsame] at hs ⊢
  refine (storeCandidate_encounters hd hq hs c htake policy _).mono fun r w'' hmet => ?_
  exact hmet.congr fun e he => hc.meets_iff hd hs htext hunset he

/-- Whatever calls a store has seen: what a creation without a name updates or skips has the slot
of the payload, unless nobody has it and the name with the token is that of another account. -/
theorem unnamed_encounters {payload : Json.Object} (hname : Unset payload "name")
    (htemplate : Unset payload "template") (policy : Policy) (supply : Supply)
    (r : Account × Outcome) :
    let token := (supply.draws supply.used).token
    (∀ entries m w', Reachable Memory.empty entries m →
      createAccount payload policy ⟨m, supply⟩ = (.ok r, w') →
      Encounter (fun e => HoldsSlot payload e ∨ Mistaken m payload token e) m r w'.store) ∧
    ∀ clock entries s w', Reachable (Relational.empty clock) entries s →
      createAccount payload policy ⟨s, supply⟩ = (.ok r, w') →
      Encounter (fun e => HoldsSlot payload e ∨ Mistaken s payload token e) s r w'.store := by
  intro token
  constructor
  · intro entries m w' hm hrun
    exact (createAccount_encounters Memory.decided Memory.queueing
      (sound_of_reachable hm) hname htemplate policy).of_value hrun
  · intro clock entries s w' hs hrun
    exact (createAccount_encounters (Relational.decided s.clock) Relational.queueing
      (Relational.kept_of_reachable hs) hname htemplate policy).of_value hrun

theorem unnamed_encounters_renamed :
    let m : Memory := renamedCalls.foldl (fun m c => (c.run m).2) (Store.enter Memory.empty)
    let s : Relational := renamedCalls.foldl (fun s c => (c.run s).2)
      (Store.enter (Relational.empty ⟨0, 0⟩))
    let payload : Json.Object := [("asset", .text "asset"), ("username", .text "root")]
    Unset payload "name" ∧ Unset payload "template" ∧
    (∃ r w', createAccount payload .skip ⟨m, countedDraws, 0⟩ = (.ok r, w') ∧
      Encounter (fun e => HoldsSlot payload e ∨ Mistaken m payload "token" e) m r w'.store ∧
      r = (slotHolder, .skipped)) ∧
    ∃ r w', createAccount payload .skip ⟨s, countedDraws, 0⟩ = (.ok r, w') ∧
      Encounter (fun e => HoldsSlot payload e ∨ Mistaken s payload "token" e) s r w'.store ∧
      r = (slotHolder, .skipped) := by
  intro m s payload
  have hm := (Reachable.start : Reachable Memory.empty [] _).enter.calls renamedCalls
  have hs := (Reachable.start : Reachable (Relational.empty ⟨0, 0⟩) [] _).enter.calls renamedCalls
  have hname : Unset payload "name" := .inl rfl
  have htemplate : Unset payload "template" := .inl rfl
  refine ⟨hname, htemplate, ⟨(slotHolder, .skipped), _, rfl, ?_, rfl⟩,
    (slotHolder, .skipped), _, rfl, ?_, rfl⟩
  · exact (unnamed_encounters hname htemplate .skip ⟨countedDraws, 0⟩ _).1 _ m _ hm rfl
  · exact (unnamed_encounters hname htemplate .skip ⟨countedDraws, 0⟩ _).2 _ _ s _ hs rfl

def stranger : Account :=
  { slotHolder with id := "third", name := "root_token", username := "deploy" }

def strangerCalls : List Call := renamedCalls ++ [.insertAccount stranger]

def strangerMemory : Memory :=
  strangerCalls.foldl (fun m c => (c.run m).2) (Store.enter Memory.empty)

def strangerTables : Relational :=
  strangerCalls.foldl (fun s c => (c.run s).2) (Store.enter (Relational.empty ⟨0, 0⟩))

def keyPayload : Json.Object :=
  [("asset", .text "asset"), ("secret_type", .text "ssh_key"), ("username", .text "root")]

/-- Nobody has the slot of the key, but the name that it is given is the stranger's, whose username
is then overwritten. -/
theorem stranger_overwritten :
    Unset keyPayload "name" ∧ Unset keyPayload "template" ∧ ¬ HoldsSlot keyPayload stranger ∧
    (Reachable Memory.empty [Memory.empty] strangerMemory ∧ Stored strangerMemory stranger ∧
      (createAccount keyPayload .update ⟨strangerMemory, countedDraws, 0⟩).1.toOption.map
        (fun r => (r.1.id, r.2)) = some (stranger.id, .updated) ∧
      (account? (createAccount keyPayload .update ⟨strangerMemory, countedDraws, 0⟩).2.store
        stranger.id).map (·.username) = some "root") ∧
    Reachable (Relational.empty ⟨0, 0⟩) [Relational.empty ⟨0, 0⟩] strangerTables ∧
      Stored strangerTables stranger ∧
      (createAccount keyPayload .update ⟨strangerTables, countedDraws, 0⟩).1.toOption.map
        (fun r => (r.1.id, r.2)) = some (stranger.id, .updated) ∧
      (account? (createAccount keyPayload .update ⟨strangerTables, countedDraws, 0⟩).2.store
        stranger.id).map (·.username) = some "root" := by
  have hother : ¬ HoldsSlot keyPayload stranger := fun h => absurd h.username (by decide)
  have hm := (Reachable.start : Reachable Memory.empty [] _).enter.calls strangerCalls
  have hs := (Reachable.start : Reachable (Relational.empty ⟨0, 0⟩) [] _).enter.calls strangerCalls
  exact ⟨.inl rfl, .inl rfl, hother, ⟨hm, rfl, by decide +kernel, by decide +kernel⟩, hs, rfl,
    by decide +kernel, by decide +kernel⟩

end Service

end Custody
