import Custody.Proofs.Bulk.Report
import Custody.Proofs.Store.Reconcile

/-!
What a bulk calls the accounts that it finds. An account is renamed only where the report lists it
as updated, and then to the candidate's name. But the second attempt follows a refused update as it
follows a refused creation: the holder of the slot is left with the name that has the token if the
candidate's own is another account's.
-/
namespace Custody

open Store

namespace Store

def RefusesRivals {σ : Type} [Store σ] (good : σ → Prop) : Prop :=
  ∀ {s : σ} {a old : Account} {e : Error}, good s → account? s a.id = some old →
    a.assetId = old.assetId → (updateAccount a s).1 = .error e → e.isDuplicate →
    ∃ b, Stored s b ∧ a.Rivals b

theorem Memory.refusesRivals :
    RefusesRivals fun m : Memory => m.records.Filed ∧ m.records.Unique := by
  intro m a old e hm hold _ herror _
  have hfound : m.records.accounts.contains a.id = true := congrArg Option.isSome hold
  by_contra hnone
  have hcheck := (checkAccount_eq_ok_iff_rivals hm.1).mpr fun b hb hrivals =>
    hnone ⟨b, hb, hrivals⟩
  have hok : (updateAccount a m).1 = .ok () := guarded_isOk_iff.mpr
    ⟨_, Records.updateAccount_eq_ok_iff.mpr ⟨hfound, hcheck, rfl⟩⟩
  cases hok.symm.trans herror

theorem Relational.refusesRivals (clock : Time.Instant) : RefusesRivals (Kept clock) := by
  intro s a old e hs hold hasset herror hdup
  obtain ⟨row, hrow, rfl⟩ := Option.map_eq_some_iff.mp hold
  by_contra hnone
  have hfree : checkUnique Tables.accountIndexes (s.tables.accounts.filter (·.id != a.id))
      { a with assetId := row.assetId, dateCreated := row.dateCreated } = .ok () := by
    have hsame : { a with assetId := row.assetId } = a := by
      rw [show row.assetId = a.assetId from hasset.symm]
    rw [← hsame] at hnone
    exact (checkUnique_eq_ok_iff_rivals hs.1.1).mpr fun b hb hrivals => hnone ⟨b, hb, hrivals⟩
  change (guarded (Tables.updateAccount a) s).1 = _ at herror
  cases hupd : s.tables.updateAccount a with
  | ok t =>
    rw [guarded_of_ok hupd] at herror
    cases herror
  | error e' =>
    rw [guarded_of_error hupd] at herror
    cases herror
    rw [Tables.updateAccount, hrow] at hupd
    dsimp only at hupd
    rw [hfree] at hupd
    cases hholds : a.suFrom.all s.tables.hasAccount with
    | true =>
      rw [hholds] at hupd
      cases hupd
    | false =>
      rw [hholds] at hupd
      cases hupd
      cases hdup

end Store

namespace Bulk

variable {σ : Type} [Store σ] {good : σ → Prop} {dated : Time.Instant → Time.Instant}
  {c : Candidate} {policy : Policy} {target : Target} {d : Draw} {now : Time.Instant} {s s' : σ}
  {a : Account} {e : Entry}

def Entry.Updates (e : Entry) (id : String) : Prop := e.state = .updated ∧ e.account = some id

/-- What an attempt comes to where this account holds the slot. -/
inductive Tried (dated : Time.Instant → Time.Instant) (c : Candidate) (a : Account)
    (now : Time.Instant) (s : σ) : σ → Except Error (Account × Outcome) → Prop
  | updated {s' : σ} : ¬ c.Blocked s a →
    account? s' = Function.update (account? s) a.id (some (c.applyTo a (dated now))) →
    Tried dated c a now s s' (.ok (c.applyTo a now, .updated))
  | skipped : Tried dated c a now s s (.ok (a, .skipped))
  | failed (e : Error) : (e.isDuplicate → c.Blocked s a) → Tried dated c a now s s (.error e)

inductive Renamed (c : Candidate) (d : Draw) (a : Account) (s : σ) : σ → Entry → Prop
  | left {e : Entry} : ¬ e.Updates a.id → Renamed c d a s s e
  | named {s' : σ} {e : Entry} (name : String) (now : Time.Instant) : e.Updates a.id →
    (name = c.name ∧ ¬ c.Blocked s a ∨ name = c.name ++ "_" ++ d.token ∧ c.Blocked s a) →
    account? s' =
      Function.update (account? s) a.id (some ({ c with name := name }.applyTo a now)) →
    Renamed c d a s s' e

theorem told_renamed {name asset : String} {r : Except Error (Account × Outcome)}
    (hname : ¬ { c with name := name }.Blocked s a →
      name = c.name ∧ ¬ c.Blocked s a ∨ name = c.name ++ "_" ++ d.token ∧ c.Blocked s a)
    (h : Tried dated { c with name := name } a now s s' r) :
    Renamed c d a s s' (told asset r) := by
  cases h with
  | updated hfree hafter =>
    have hid := ({ c with name := name }.applyTo_rewritten a now).id
    exact .named name _ ⟨rfl, congrArg some hid⟩ (hname hfree) hafter
  | skipped => exact .left fun h => nomatch h.1
  | failed e _ => exact .left fun h => nomatch h.1

section Steps

variable (hd : Decided good dated) (hs : good s)

include hd hs

theorem not_blocked_of_update (ha : Stored s a)
    (hupd : updateAccount (c.applyTo a now) s = (.ok (), s')) : ¬ c.Blocked s a := by
  rintro ⟨hfills, b, hb, hne, hnames⟩
  have hnew := c.applyTo_rewritten a now
  obtain ⟨hs', -⟩ := hd.bookkeeping.update hs (hnew.id ▸ ha) hnew.assetId hnew.dateCreated hupd
  have hafter := Candidate.account?_of_update hd hs ha hupd
  have hstored : Stored s' (c.applyTo a (dated now)) := by
    rw [Stored, hafter, (c.applyTo_rewritten a (dated now)).id, Function.update_self]
  have hnames' : c.Names (c.applyTo a (dated now)) := Account.hasName_iff.mpr
    ⟨(c.applyTo_rewritten a (dated now)).assetId.trans (Account.hasSlot_iff.mp hfills).1, rfl⟩
  have hb' : Stored s' b := by
    rw [Stored, hafter, Function.update_of_ne hne]
    exact hb
  have heq := Candidate.eq_of_names hd hs' hb' hstored hnames hnames'
  exact hne (heq ▸ (c.applyTo_rewritten a (dated now)).id)

variable (hseamless : Seamless σ) (hrefuses : RefusesRivals good)

include hseamless hrefuses

theorem attempt_held (ha : Stored s a) (hfills : c.Fills a) (policy : Policy) (id : String)
    (now : Time.Instant) : ∃ r s', good s' ∧ Tried dated c a now s s' r ∧
      ∀ supply, attempt c policy id now ⟨s, supply⟩ = (.ok r, ⟨s', supply⟩) := by
  have hheld := (hd.slot hs).mpr ⟨ha, hfills⟩
  have hrun (supply : Supply) := attempt_of_reconcile hseamless
    (reconcile_of_held policy id now hheld supply)
  have hnew := c.applyTo_rewritten a now
  cases policy with
  | skip => exact ⟨_, s, hs, .skipped, hrun⟩
  | error => exact ⟨_, s, hs, .failed (.conflict .account) nofun, hrun⟩
  | update =>
    cases hupd : updateAccount (c.applyTo a now) s with
    | mk r s' =>
      rw [hupd] at hrun
      cases r with
      | ok _ =>
        obtain ⟨hs', -⟩ :=
          hd.bookkeeping.update hs (hnew.id ▸ ha) hnew.assetId hnew.dateCreated hupd
        have hafter := Candidate.account?_of_update hd hs ha hupd
        exact ⟨_, s', hs', .updated (not_blocked_of_update hd hs ha hupd) hafter, hrun⟩
      | error e =>
        obtain rfl := hd.bookkeeping.update_error hupd
        refine ⟨_, _, hs, .failed e fun hdup => ?_, hrun⟩
        refine (Candidate.exists_rival_iff_blocked now hd hs ⟨ha, .inl hfills⟩).mp ?_
        exact hrefuses hs (hnew.id ▸ ha) hnew.assetId (congrArg Prod.fst hupd) hdup

theorem createFor_held (ha : Stored s a) (hfills : c.Fills a) (policy : Policy) (d : Draw) :
    ∃ e s', good s' ∧ Renamed c d a s s' e ∧
      ∀ supply, createFor c policy d ⟨s, supply⟩ = (.ok e, ⟨s', supply⟩) := by
  -- The second attempt is for the same slot, so that it meets the same account.
  rw [createFor_eq]
  obtain ⟨r, s', hs', hr, hrun⟩ :=
    attempt_held hd hs hseamless hrefuses ha hfills policy d.id d.now
  by_cases hdup : ∃ e, r = .error e ∧ e.isDuplicate
  · obtain ⟨e, rfl, hdup⟩ := hdup
    cases hr with
    | failed _ hblocked =>
      have hblocked := hblocked hdup
      obtain ⟨r', s'', hs'', hr', hrun'⟩ := attempt_held hd hs hseamless hrefuses
        (c := { c with name := c.name ++ "_" ++ d.token }) ha hfills policy d.spare d.now
      refine ⟨told c.assetId r', s'', hs'', ?_, fun supply => ?_⟩
      · exact told_renamed (fun _ => .inr ⟨rfl, hblocked⟩) hr'
      refine (Run.bind_of_ok (hrun supply) _).trans ?_
      dsimp only
      rw [if_pos hdup]
      exact Run.bind_of_ok (hrun' supply) _
  · refine ⟨told c.assetId r, s', hs', ?_, fun supply => ?_⟩
    · exact told_renamed (fun hfree => .inl ⟨rfl, hfree⟩) hr
    refine (Run.bind_of_ok (hrun supply) _).trans ?_
    cases r with
    | ok _ => rfl
    | error e =>
      dsimp only
      rw [if_neg fun h => hdup ⟨e, rfl, h⟩]
      rfl

theorem step_held (ha : Stored s a) (hasset : target.assetId = a.assetId)
    (hfills : (c.forAsset a.assetId).Fills a) (policy : Policy) (d : Draw) :
    ∃ e s', good s' ∧ Renamed (c.forAsset a.assetId) d a s s' e ∧
      ∀ supply, step c policy target d ⟨s, supply⟩ = (.ok e, ⟨s', supply⟩) := by
  unfold step
  rw [hasset]
  split
  · exact createFor_held hd hs hseamless hrefuses ha hfills policy d
  · exact ⟨.failed a.assetId (unsupported c.secretType), s, hs, .left nofun, fun _ => rfl⟩

end Steps

/-- What a bulk over these targets with these entries leaves of an account: it is as before unless
it is listed as updated, and then has the candidate's name or, if that was another account's, the
name with the token of a target. -/
structure Renaming (c : Candidate) (targets : List (Target × Draw)) (entries : List Entry) (s : σ)
    (a a' : Account) : Prop where
  kept : (∀ e ∈ entries, ¬ e.Updates a.id) → a' = a
  named : ∀ e ∈ entries, e.Updates a.id → ¬ (c.forAsset a.assetId).Blocked s a → a'.name = c.name
  suffixed : ∀ e ∈ entries, e.Updates a.id → (c.forAsset a.assetId).Blocked s a →
    ∃ td ∈ targets, td.1.assetId = a.assetId ∧ a'.name = c.name ++ "_" ++ td.2.token

namespace Renaming

variable {targets : List (Target × Draw)} {entries : List Entry} {a' a'' : Account}

theorem refl (h : ∀ e ∈ entries, ¬ e.Updates a.id) : Renaming c targets entries s a a where
  kept _ := rfl
  named e he hupd := absurd hupd (h e he)
  suffixed e he hupd := absurd hupd (h e he)

theorem name (h : Renaming c targets entries s a a')
    (hfree : ¬ (c.forAsset a.assetId).Blocked s a) : a'.name = a.name ∨ a'.name = c.name := by
  by_cases hupd : ∃ e ∈ entries, e.Updates a.id
  · obtain ⟨e, he, hupd⟩ := hupd
    exact .inr (h.named e he hupd hfree)
  · exact .inl (congrArg Account.name (h.kept fun e he hupd' => hupd ⟨e, he, hupd'⟩))

theorem ordered (h : Renaming c targets entries s a a') :
    Renaming c targets (ordered entries) s a a' where
  kept hnone := h.kept fun e he => hnone e (mem_ordered.mpr he)
  named e he := h.named e (mem_ordered.mp he)
  suffixed e he := h.suffixed e (mem_ordered.mp he)

theorem after_left (hleft : ¬ e.Updates a.id)
    (hblocked : (c.forAsset a.assetId).Blocked s' a ↔ (c.forAsset a.assetId).Blocked s a)
    (h : Renaming c targets entries s' a a') :
    Renaming c ((target, d) :: targets) (e :: entries) s a a' where
  kept hnone := h.kept (List.forall_mem_cons.mp hnone).2
  named e' he' hupd hfree := by
    rcases List.mem_cons.mp he' with rfl | he'
    · exact absurd hupd hleft
    · exact h.named e' he' hupd (hfree ∘ hblocked.mp)
  suffixed e' he' hupd hheld := by
    rcases List.mem_cons.mp he' with rfl | he'
    · exact absurd hupd hleft
    · obtain ⟨td, htd, hname⟩ := h.suffixed e' he' hupd (hblocked.mpr hheld)
      exact ⟨td, .tail _ htd, hname⟩

theorem after_named (hupd : e.Updates a.id) (hid : a'.id = a.id) (hasset : a'.assetId = a.assetId)
    (htarget : target.assetId = a.assetId)
    (hblocked : (c.forAsset a.assetId).Blocked s' a' ↔ (c.forAsset a.assetId).Blocked s a)
    (hname : a'.name = c.name ∧ ¬ (c.forAsset a.assetId).Blocked s a ∨
      a'.name = c.name ++ "_" ++ d.token ∧ (c.forAsset a.assetId).Blocked s a)
    (h : Renaming c targets entries s' a' a'') :
    Renaming c ((target, d) :: targets) (e :: entries) s a a'' := by
  rw [← hasset] at hblocked
  by_cases hlater : ∃ e' ∈ entries, e'.Updates a'.id
  · obtain ⟨e', he', hupd'⟩ := hlater
    refine ⟨fun hnone => absurd hupd (hnone e (.head _)), fun _ _ _ hfree => ?_,
      fun _ _ _ hheld => ?_⟩
    · exact h.named e' he' hupd' fun hheld => hfree (hasset ▸ hblocked.mp hheld)
    · obtain ⟨td, htd, htarget', hname'⟩ := h.suffixed e' he' hupd' (hblocked.mpr (hasset ▸ hheld))
      exact ⟨td, .tail _ htd, htarget'.trans hasset, hname'⟩
  · obtain rfl := h.kept fun e' he' hupd' => hlater ⟨e', he', hupd'⟩
    refine ⟨fun hnone => absurd hupd (hnone e (.head _)), fun _ _ _ hfree => ?_,
      fun _ _ _ hheld => ?_⟩
    · exact (hname.resolve_right fun h => hfree h.2).1
    · exact ⟨_, .head _, htarget, (hname.resolve_left fun h => h.2 hheld).1⟩

end Renaming

theorem blocked_iff {a' : Account} (hid : a'.id = a.id) (hfills : c.Fills a' ↔ c.Fills a)
    (h : ∀ b, b.id ≠ a.id → c.Names b → (Stored s' b ↔ Stored s b)) :
    c.Blocked s' a' ↔ c.Blocked s a := by
  -- Whether the name is another's is settled by the other accounts of the asset.
  unfold Candidate.Blocked
  rw [hfills, hid]
  refine and_congr_right fun _ => exists_congr fun b => ⟨?_, ?_⟩
  · rintro ⟨hb, hne, hnames⟩
    exact ⟨(h b hne hnames).mp hb, hne, hnames⟩
  · rintro ⟨hb, hne, hnames⟩
    exact ⟨(h b hne hnames).mpr hb, hne, hnames⟩

theorem holds_again {name : String} (hfills : c.Fills a) (hafter : account? s' =
      Function.update (account? s) a.id (some ({ c with name := name }.applyTo a now))) :
    ∃ a', a'.name = name ∧ a'.id = a.id ∧ a'.assetId = a.assetId ∧ Stored s' a' ∧ c.Fills a' ∧
      (c.Blocked s' a' ↔ c.Blocked s a) := by
  have hnew := { c with name := name }.applyTo_rewritten a now
  have hfills' : c.Fills ({ c with name := name }.applyTo a now) := Account.hasSlot_iff.mpr
    ⟨hnew.assetId.trans (Account.hasSlot_iff.mp hfills).1, rfl, rfl⟩
  refine ⟨_, rfl, hnew.id, hnew.assetId, ?_, hfills', ?_⟩
  · rw [Stored, hafter, hnew.id, Function.update_self]
  · refine blocked_iff hnew.id (iff_of_true hfills' hfills) fun b hne _ => ?_
    rw [Stored, hafter, Function.update_of_ne hne]
    rfl

theorem Entry.Truthful.fills_of_updates (h : e.Truthful dated c target d s s') (ha : Stored s a)
    (hupd : e.Updates a.id) :
    target.assetId = a.assetId ∧ (c.forAsset a.assetId).Fills a := by
  obtain ⟨id, old, _, _, hid, hold, hslot, -⟩ := h.updated hupd.1
  obtain rfl := Option.some.inj (hid.symm.trans hupd.2)
  obtain rfl := Option.some.inj (hold.symm.trans ha)
  obtain ⟨hasset, husername, htype⟩ := Account.hasSlot_iff.mp hslot
  exact ⟨hasset.symm, Account.hasSlot_iff.mpr ⟨rfl, husername, htype⟩⟩

theorem Entry.Truthful.stored_of_left (h : e.Truthful dated c target d s s') (ha : Stored s a)
    (hleft : ¬ e.Updates a.id) : Stored s' a := by
  by_cases haccount : e.account = some a.id
  · cases he : e.state with
    | created =>
      obtain ⟨id, _, hid, hnone, -⟩ := h.created he
      obtain rfl := Option.some.inj (hid.symm.trans haccount)
      exact nomatch hnone.symm.trans ha
    | updated => exact absurd ⟨he, haccount⟩ hleft
    | skipped => exact (h.skipped he).1 ▸ ha
    | error => exact (h.failed he).1 ▸ ha
  · exact (h.frame a.id haccount).trans ha

section Course

variable {targets : List (Target × Draw)} {entries : List Entry}

theorem Course.left (h : Course dated c policy s targets entries s') (ha : Stored s a)
    (hother : ¬ (c.forAsset a.assetId).Fills a) :
    Stored s' a ∧ ∀ e ∈ entries, ¬ e.Updates a.id := by
  induction h with
  | done s => exact ⟨ha, nofun⟩
  | step _ htrue _ ih =>
    have hleft := fun hupd => hother (htrue.fills_of_updates ha hupd).2
    obtain ⟨hstored, hrest⟩ := ih (htrue.stored_of_left ha hleft)
    exact ⟨hstored, List.forall_mem_cons.mpr ⟨hleft, hrest⟩⟩

variable (hd : Decided good dated) (hseamless : Seamless σ)

include hd hseamless

theorem good_of_step (hs : good s)
    (hrun : ∀ supply, step c policy target d ⟨s, supply⟩ = (.ok e, ⟨s', supply⟩)) : good s' := by
  obtain ⟨e', s'', hs', -, hrun'⟩ := step_truthful hseamless hd.bookkeeping c policy target d hs
  cases (hrun ⟨fun _ => d, 0⟩).symm.trans (hrun' ⟨fun _ => d, 0⟩)
  exact hs'

variable (hrefuses : RefusesRivals good)

include hrefuses

theorem renamed_of_step (hs : good s) (ha : Stored s a) (hasset : target.assetId = a.assetId)
    (hfills : (c.forAsset a.assetId).Fills a)
    (hrun : ∀ supply, step c policy target d ⟨s, supply⟩ = (.ok e, ⟨s', supply⟩)) :
    Renamed (c.forAsset a.assetId) d a s s' e := by
  obtain ⟨e', s'', -, hren, hrun'⟩ :=
    step_held hd hs hseamless hrefuses ha hasset hfills policy d
  cases (hrun ⟨fun _ => d, 0⟩).symm.trans (hrun' ⟨fun _ => d, 0⟩)
  exact hren

theorem Course.renaming (h : Course dated c policy s targets entries s') (hs : good s)
    (ha : Stored s a) (hfills : (c.forAsset a.assetId).Fills a) :
    ∃ a', account? s' a.id = some a' ∧ Renaming c targets entries s a a' := by
  -- The holder of a slot is followed through the steps. Those for its asset meet it, and whether
  -- the candidate's name is another's stays as it was before the first of them.
  induction h generalizing a with
  | done s => exact ⟨a, ha, .refl nofun⟩
  | @step s s₁ s' target d e rest entries hrun htrue _ ih =>
    have hs₁ := good_of_step hd hseamless hs hrun
    by_cases hasset : target.assetId = a.assetId
    · cases renamed_of_step hd hseamless hrefuses hs ha hasset hfills hrun with
      | left hleft =>
        obtain ⟨a', ha', hren⟩ := ih hs ha hfills
        exact ⟨a', ha', hren.after_left hleft .rfl⟩
      | named name now hupd hname hafter =>
        obtain ⟨a₁, rfl, hid, hasset₁, hstored, hfills₁, hblocked⟩ := holds_again hfills hafter
        obtain ⟨a', ha', hren⟩ := ih hs₁ hstored (hasset₁.symm ▸ hfills₁)
        exact ⟨a', hid ▸ ha', hren.after_named hupd hid hasset₁ hasset hblocked hname⟩
    · have hleft := fun hupd => hasset (htrue.fills_of_updates ha hupd).1
      have hblocked : (c.forAsset a.assetId).Blocked s₁ a ↔ (c.forAsset a.assetId).Blocked s a := by
        refine blocked_iff rfl .rfl fun b _ hnames => htrue.others b.id b ?_
        rw [(Account.hasName_iff.mp hnames).1]
        exact Ne.symm hasset
      obtain ⟨a', ha', hren⟩ := ih hs₁ (htrue.stored_of_left ha hleft) hfills
      exact ⟨a', ha', hren.after_left hleft hblocked⟩

theorem Course.renamings (h : Course dated c policy s targets entries s') (hs : good s)
    (ha : Stored s a) : ∃ a', account? s' a.id = some a' ∧ Renaming c targets entries s a a' := by
  by_cases hfills : (c.forAsset a.assetId).Fills a
  · exact h.renaming hd hseamless hrefuses hs ha hfills
  · obtain ⟨hstored, hleft⟩ := h.left ha hfills
    exact ⟨a, hstored, .refl hleft⟩

end Course

/-- What a bulk with this report leaves of the accounts that it has found. -/
def LeavesNames (c : Candidate) (targets : List Target) (supply : Supply) (report : List Entry)
    (s s' : σ) : Prop :=
  ∀ a, Stored s a → ∃ a', account? s' a.id = some a' ∧
    Renaming c (targets.zip (upcoming supply targets.length)) report s a a' ∧
    (¬ (c.forAsset a.assetId).Blocked s a → a'.name = a.name ∨ a'.name = c.name)

theorem createDrawing_leavesNames (hd : Decided good dated) (hseamless : Seamless σ)
    (hrefuses : RefusesRivals good) (c : Candidate) (targets : List Target) (policy : Policy)
    {w : World σ} (hs : good w.store) :
    Run.Returns (createDrawing c targets policy) w fun report w' =>
      LeavesNames c targets w.supply report w.store w'.store := by
  obtain ⟨entries, s', hcourse, -, -, hrun⟩ :=
    reported_of_bookkeeping hseamless hd.bookkeeping c targets policy w hs
  split at hrun
  · exact .failed hrun trivial
  · refine .ok hrun fun a ha => ?_
    obtain ⟨a', ha', hren⟩ := hcourse.renamings hd hseamless hrefuses hs ha
    exact ⟨a', ha', hren.ordered, hren.name⟩

end Bulk

end Custody
