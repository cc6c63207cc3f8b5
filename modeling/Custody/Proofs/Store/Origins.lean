import Custody.Proofs.Store.Ledger

/-!
The asset of an account, followed from its insertion on. The tables never write it again. The store
in memory takes it from every update as it comes: there an account stays where it was inserted
exactly as long as the updates leave it there.
-/
namespace Custody.Store

/-- The asset that an account of this id was last inserted with. -/
abbrev Origins := String → Option String

section Recorded

variable {σ : Type} [Store σ]

def Call.origins (c : Call) (s : σ) (o : Origins) : Origins :=
  match c, (c.run s).1 with
  | .insertAccount a, .ok _ => fun id => if id = a.id then some a.assetId else o id
  | _, _ => o

def Call.Stays (s : σ) (c : Call) : Prop :=
  match c with
  | .updateAccount a => (c.run s).1 = .ok () →
    (account? s a.id).map (·.assetId) = some a.assetId
  | _ => True

/-- The reachable stores with the origins of their accounts, for runs whose calls are allowed where
they are made. A block that is taken back takes its origins back. -/
inductive Recorded (allowed : σ → Call → Prop) (start : σ) :
    List (σ × Origins) → σ → Origins → Prop
  | start : Recorded allowed start [] start fun _ => none
  | call {entries : List (σ × Origins)} {s : σ} {o : Origins} (c : Call) : allowed s c →
    Recorded allowed start entries s o → Recorded allowed start entries (c.run s).2 (c.origins s o)
  | enter {entries : List (σ × Origins)} {s : σ} {o : Origins} :
    Recorded allowed start entries s o → Recorded allowed start ((s, o) :: entries) (enter s) o
  | commit {entries : List (σ × Origins)} {entry : σ × Origins} {s : σ} {o : Origins} :
    Recorded allowed start (entry :: entries) s o → Recorded allowed start entries (commit s) o
  | revert {entries : List (σ × Origins)} {entry : σ × Origins} {s : σ} {o : Origins} :
    Recorded allowed start (entry :: entries) s o →
    Recorded allowed start entries (revert entry.1 s) entry.2

/-- Every account stands on a stored asset, the one it was inserted with. -/
def Rooted (s : σ) (o : Origins) : Prop :=
  ∀ a ∈ accounts s none, (asset? s a.assetId).isSome ∧ o a.id = some a.assetId

variable {allowed : σ → Call → Prop} {start : σ} {entries : List (σ × Origins)} {s : σ}
  {o : Origins}

theorem Recorded.reachable (h : Recorded allowed start entries s o) :
    Reachable start (entries.map (·.1)) s := by
  induction h with
  | start => exact .start
  | call c _ _ ih => exact ih.call c
  | enter _ ih => exact ih.enter
  | commit _ ih => exact ih.commit
  | revert _ ih => exact ih.revert

theorem Reachable.recorded {entries : List σ} (h : Reachable start entries s) :
    ∃ es o, es.map (·.1) = entries ∧ Recorded (fun _ _ => True) start es s o := by
  induction h with
  | start => exact ⟨[], _, rfl, .start⟩
  | call c _ ih =>
    obtain ⟨es, o, hes, h⟩ := ih
    exact ⟨es, _, hes, h.call c trivial⟩
  | @enter _ s _ ih =>
    obtain ⟨es, o, rfl, h⟩ := ih
    exact ⟨(s, o) :: es, o, rfl, h.enter⟩
  | commit _ ih =>
    obtain ⟨es, o, hes, h⟩ := ih
    obtain ⟨e, rest, rfl, -, rfl⟩ := List.map_eq_cons_iff.mp hes
    exact ⟨rest, o, rfl, h.commit⟩
  | revert _ ih =>
    obtain ⟨es, o, hes, h⟩ := ih
    obtain ⟨e, rest, rfl, rfl, rfl⟩ := List.map_eq_cons_iff.mp hes
    exact ⟨rest, e.2, rfl, h.revert⟩

/-- What holds of a store and its origins at the start, and is kept by the allowed calls and both
ends of a block, holds all along. -/
theorem Recorded.invariant {I : σ → Origins → Prop} (hstart : I start fun _ => none)
    (hcall : ∀ {entries s o} (c : Call), Reachable start entries s → allowed s c → I s o →
      I (c.run s).2 (c.origins s o))
    (henter : ∀ {s o}, I s o → I (Store.enter s) o)
    (hcommit : ∀ {s o}, I s o → I (Store.commit s) o)
    (hrevert : ∀ {entries entry s o}, Reachable start (entry :: entries) s → I entry o →
      I (Store.revert entry s) o)
    (h : Recorded allowed start entries s o) : I s o := by
  suffices I s o ∧ ∀ entry ∈ entries, I entry.1 entry.2 from this.1
  induction h with
  | start => exact ⟨hstart, nofun⟩
  | call c hc h ih => exact ⟨hcall c h.reachable hc ih.1, ih.2⟩
  | enter _ ih => exact ⟨henter ih.1, List.forall_mem_cons.mpr ih⟩
  | commit _ ih => exact ⟨hcommit ih.1, (List.forall_mem_cons.mp ih.2).2⟩
  | revert h ih =>
    obtain ⟨hentry, hrest⟩ := List.forall_mem_cons.mp ih.2
    exact ⟨hrevert h.reachable hentry, hrest⟩

def recordAll (calls : List Call) (s : σ) (o : Origins) : σ × Origins :=
  calls.foldl (fun p c => ((c.run p.1).2, c.origins p.1 p.2)) (s, o)

def Along (allowed : σ → Call → Prop) : List Call → σ → Prop
  | [], _ => True
  | c :: rest, s => allowed s c ∧ Along allowed rest (c.run s).2

theorem Recorded.calls (h : Recorded allowed start entries s o) (calls : List Call)
    (hcalls : Along allowed calls s) :
    Recorded allowed start entries (recordAll calls s o).1 (recordAll calls s o).2 := by
  induction calls generalizing s o with
  | nil => exact h
  | cons c rest ih => exact ih (h.call c hcalls.1) hcalls.2

end Recorded

namespace Memory

variable {m : Memory} {o : Origins}

def rootedRecords (o : Origins) (r : Records) : Prop :=
  ∀ a ∈ r.accounts.values, r.assets.contains a.assetId = true ∧ o a.id = some a.assetId

theorem rooted_iff : Rooted m o ↔ rootedRecords o m.records := by
  unfold Rooted
  simp only [mem_accounts]
  rfl

theorem rooted_insertAccount {a : Account} (hm : m.records.Filed) (h : Rooted m o) :
    Rooted ((Call.insertAccount a).run m).2 ((Call.insertAccount a).origins m o) := by
  unfold Call.origins
  cases hrun : (Call.insertAccount a).run m with
  | mk r m' =>
    cases r with
    | error e => exact call_error hrun ▸ h
    | ok _ =>
      obtain ⟨r, hr, rfl⟩ := eq_ok_of_guarded (f := Records.insertAccount a) hrun
      obtain ⟨hfresh, hasset, -, rfl⟩ := Records.insertAccount_eq_ok_iff.mp hr
      refine rooted_iff.mpr (Records.forall_mem_place (fun b hb => ?_) ⟨hasset, if_pos rfl⟩)
      obtain ⟨hpresent, horigin⟩ := rooted_iff.mp h b hb
      have hne : b.id ≠ a.id := fun heq => by
        have hget := hm.accounts.get?_eq_some_iff.mpr ⟨hb, heq⟩
        rw [Keyed.contains, hget] at hfresh
        cases hfresh
      exact ⟨hpresent, (if_neg hne).trans horigin⟩

theorem rooted_updateAccount {a : Account} (hm : m.records.Filed) (h : Rooted m o)
    (hstays : (Call.updateAccount a).Stays m) : Rooted ((Call.updateAccount a).run m).2 o := by
  cases hrun : (Call.updateAccount a).run m with
  | mk r m' =>
    cases r with
    | error e => exact call_error hrun ▸ h
    | ok _ =>
      obtain ⟨old, hold, hasset⟩ := Option.map_eq_some_iff.mp (hstays (congrArg Prod.fst hrun))
      obtain ⟨hmem, hid⟩ := hm.accounts.get?_eq_some_iff.mp hold
      obtain ⟨r, hr, rfl⟩ := eq_ok_of_guarded (f := Records.updateAccount a) hrun
      obtain ⟨-, -, rfl⟩ := Records.updateAccount_eq_ok_iff.mp hr
      have hrooted := rooted_iff.mp h old hmem
      rw [hasset, hid] at hrooted
      exact rooted_iff.mpr (Records.forall_mem_place (rooted_iff.mp h) hrooted)

theorem not_rooted_of_moved {a : Account} (hm : m.records.Filed) (h : Rooted m o)
    (hmoves : ¬ (Call.updateAccount a).Stays m) : ¬ Rooted ((Call.updateAccount a).run m).2 o := by
  obtain ⟨hok, hmoved⟩ := Classical.not_imp.mp hmoves
  intro hafter
  cases hrun : (Call.updateAccount a).run m with
  | mk r m' =>
    rw [hrun] at hok hafter
    cases hok
    obtain ⟨r, hr, rfl⟩ := eq_ok_of_guarded (f := Records.updateAccount a) hrun
    obtain ⟨hfound, -, rfl⟩ := Records.updateAccount_eq_ok_iff.mp hr
    obtain ⟨old, hold⟩ := Option.isSome_iff_exists.mp hfound
    obtain ⟨hmem, hid⟩ := hm.accounts.get?_eq_some_iff.mp hold
    have hplaced : (m.records.accounts.place a.id a).get? a.id = some a :=
      Keyed.get?_place_self _ _ _
    have hnew := (hm.accounts.place a).get?_eq_some_iff.mp hplaced
    have horigin := (rooted_iff.mp hafter a hnew.1).2
    rw [← hid, (rooted_iff.mp h old hmem).2] at horigin
    exact hmoved ((congrArg (Option.map Account.assetId) hold).trans horigin)

theorem rooted_call (c : Call) (hm : m.records.Filed) (h : Rooted m o) (hstays : c.Stays m) :
    Rooted (c.run m).2 (c.origins m o) := by
  have hrooted := rooted_iff.mp h
  cases c with
  | insertPlatform p =>
    refine rooted_iff.mpr (guarded_keeps (I := rootedRecords o) hrooted fun r hr => ?_)
    obtain ⟨-, -, rfl⟩ := Records.insertPlatform_eq_ok_iff.mp hr
    exact hrooted
  | insertAsset a =>
    refine rooted_iff.mpr (guarded_keeps (I := rootedRecords o) hrooted fun r hr => ?_)
    obtain ⟨-, -, rfl⟩ := Records.insertAsset_eq_ok_iff.mp hr
    exact fun b hb => ⟨Records.contains_place (hrooted b hb).1, (hrooted b hb).2⟩
  | deleteAsset id =>
    refine rooted_iff.mpr ?_
    change rootedRecords o (m.records.deleteAsset id).2
    unfold Records.deleteAsset
    split
    · intro b hb
      obtain ⟨p, hp, rfl⟩ := List.mem_map.mp hb
      obtain ⟨hp, hother⟩ := List.mem_filter.mp hp
      obtain ⟨hpresent, horigin⟩ := hrooted _ (List.mem_map_of_mem hp)
      refine ⟨?_, horigin⟩
      rwa [Keyed.contains, Keyed.get?_erase_of_ne _ (of_decide_eq_true hother)]
    · exact hrooted
  | insertNode n =>
    refine rooted_iff.mpr (guarded_keeps (I := rootedRecords o) hrooted fun r hr => ?_)
    obtain ⟨-, rfl⟩ := Records.insertNode_eq_ok_iff.mp hr
    exact hrooted
  | insertTemplate t =>
    refine rooted_iff.mpr (guarded_keeps (I := rootedRecords o) hrooted fun r hr => ?_)
    obtain ⟨-, rfl⟩ := Records.insertTemplate_eq_ok_iff.mp hr
    exact hrooted
  | deleteTemplate id => exact h
  | insertAccount a => exact rooted_insertAccount hm h
  | updateAccount a => exact rooted_updateAccount hm h hstays
  | enqueue p now => exact h

theorem rooted_of_recorded {entries : List (Memory × Origins)}
    (h : Recorded (fun m c => c.Stays m) Memory.empty entries m o) : Rooted m o :=
  h.invariant (I := Rooted) (rooted_iff.mpr fun _ hb => absurd hb List.not_mem_nil)
    (fun c hreach hstays h => rooted_call c (filed_of_reachable hreach) h hstays)
    (fun h => h) (fun h => h) fun _ h => h

end Memory

namespace Relational

variable {s : Relational} {o : Origins}

def rootedRows (o : Origins) (t : Tables) : Prop := ∀ row ∈ t.accounts, o row.id = some row.assetId

theorem rooted_iff (hs : s.tables.References) : Rooted s o ↔ rootedRows o s.tables := by
  refine ⟨fun h row hrow => (h _ (mem_accounts.mpr ⟨row, hrow, rfl⟩)).2, fun h a ha => ?_⟩
  obtain ⟨row, hrow, rfl⟩ := mem_accounts.mp ha
  exact ⟨(asset?_isSome_iff _ _).mpr (hs.accounts row hrow), h row hrow⟩

theorem rootedRows_of_accounts {t t' : Tables} (h : rootedRows o t)
    (haccounts : t'.accounts = t.accounts) : rootedRows o t' := by
  unfold rootedRows
  rwa [haccounts]

theorem rootedRows_call (c : Call) (h : rootedRows o s.tables) :
    rootedRows (c.origins s o) (c.run s).2.tables := by
  cases c with
  | insertPlatform p =>
    exact rootedRows_of_accounts h
      (congrArg Prod.fst (performAll_keeps (Tables.keeps_platformStatements p) s))
  | insertAsset a =>
    exact rootedRows_of_accounts h
      (congrArg Prod.fst (performAll_keeps (Tables.keeps_assetStatements a) s))
  | deleteAsset id =>
    change rootedRows o (s.tables.deleteAsset id).2
    unfold Tables.deleteAsset
    split
    · intro row hrow
      obtain ⟨old, hold, rfl⟩ := List.mem_map.mp hrow
      exact h old (List.mem_filter.mp hold).1
    · exact h
  | insertNode n =>
    exact rootedRows_of_accounts h
      (congrArg Prod.fst (guarded_keeps (Tables.keeps_insertNode n) s))
  | insertTemplate u =>
    exact rootedRows_of_accounts h
      (congrArg Prod.fst (guarded_keeps (Tables.keeps_insertTemplate u) s))
  | deleteTemplate id => exact h
  | insertAccount a =>
    unfold Call.origins
    cases hrun : (Call.insertAccount a).run s with
    | mk r s' =>
      cases r with
      | error e => exact call_error hrun ▸ h
      | ok _ =>
        obtain ⟨t, ht, rfl⟩ := eq_ok_of_guarded (f := Tables.insertAccount a) hrun
        obtain ⟨hfresh, -, -, -, rfl⟩ := Tables.insertAccount_eq_ok_iff.mp ht
        refine Tables.forall_mem_concat (fun row hrow => ?_) (if_pos rfl)
        exact (if_neg (hfresh row hrow).symm).trans (h row hrow)
  | updateAccount a =>
    change rootedRows o (guarded (Tables.updateAccount a) s).2.tables
    refine guarded_invariant (I := rootedRows o) h fun t ht => ?_
    obtain ⟨old, hold, -, -, rfl⟩ := Tables.updateAccount_eq_ok_iff.mp ht
    intro row hrow
    obtain ⟨b, hb, rfl⟩ := List.mem_map.mp hrow
    split
    · have hid : old.id = a.id := by simpa using List.find?_some hold
      exact hid ▸ h old (List.mem_of_find?_eq_some hold)
    · exact h b hb
  | enqueue p now => exact h

/-- Of the open blocks each has its savepoint, which holds the tables at its entry. -/
theorem savepoints_of_reachable {clock : Time.Instant} {entries : List Relational}
    (h : Reachable (Relational.empty clock) entries s) :
    s.savepoints = entries.map fun entry => (blockName, entry.tables) := by
  induction h with
  | start => rfl
  | call c _ ih =>
    obtain ⟨t, ht⟩ := call_frame c _
    rw [ht]
    exact ih
  | enter _ ih => exact congrArg _ ih
  | commit _ ih => exact congrArg (fun stack => (fromName blockName stack).tail) ih
  | @revert entries entry s _ ih =>
    change (release blockName (rollbackTo blockName s)).savepoints = _
    unfold rollbackTo
    rw [ih]
    rfl

theorem revert_tables {clock : Time.Instant} {entries : List Relational} {entry : Relational}
    (h : Reachable (Relational.empty clock) (entry :: entries) s) :
    (Store.revert entry s).tables = entry.tables := by
  have hstack := savepoints_of_reachable h
  change (rollbackTo blockName s).tables = _
  unfold rollbackTo
  rw [hstack]
  rfl

theorem rooted_of_recorded {clock : Time.Instant} {entries : List (Relational × Origins)}
    (h : Recorded (fun _ _ => True) (Relational.empty clock) entries s o) : Rooted s o := by
  refine (rooted_iff (Tables.valid_of_reachable h.reachable).references).mpr ?_
  refine h.invariant (I := fun s o => rootedRows o s.tables)
    (fun _ hrow => absurd hrow List.not_mem_nil) (fun c _ _ h => rootedRows_call c h) (fun h => h)
    (fun h => h) fun hreach h => ?_
  rwa [revert_tables hreach]

end Relational

/-- Every run on the tables has a record of where its accounts were inserted. Whatever calls are
made, an account of the tables stands on a stored asset, the one it was inserted with. In memory it
does as long as every update leaves its account where it is, and the first one that does not ends
it. -/
theorem accounts_rooted {clock : Time.Instant} {entries : List (Relational × Origins)}
    {s : Relational} {o : Origins}
    (hs : Recorded (fun _ _ => True) (Relational.empty clock) entries s o)
    {entries' : List (Memory × Origins)} {m : Memory} {o' : Origins}
    (hm : Recorded (fun m c => c.Stays m) Memory.empty entries' m o') :
    (∀ (opened : List Relational) (t : Relational),
      Reachable (Relational.empty clock) opened t → ∃ recorded origins,
        recorded.map (·.1) = opened ∧
        Recorded (fun _ _ => True) (Relational.empty clock) recorded t origins) ∧
      Rooted s o ∧ Rooted m o' ∧
      ∀ c : Call, Rooted (c.run m).2 (c.origins m o') ↔ c.Stays m := by
  have hfiled := filed_of_reachable hm.reachable
  have hrooted := Memory.rooted_of_recorded hm
  refine ⟨fun _ _ h => h.recorded, Relational.rooted_of_recorded hs, hrooted,
    fun c => ⟨fun hafter => ?_, ?_⟩⟩
  · by_contra hmoves
    cases c with
    | updateAccount a => exact Memory.not_rooted_of_moved hfiled hrooted hmoves hafter
    | _ => exact hmoves trivial
  · exact Memory.rooted_call c hfiled hrooted

def movedAccount : Account :=
  ⟨"first", "elsewhere", "old", "root", none, .password, .manual, none, 1, false, true, "", none,
    ⟨0, 0⟩, ⟨0, 0⟩⟩

theorem accounts_rooted_renamed :
    let (s, o) := recordAll renamedCalls (enter (Relational.empty ⟨0, 0⟩)) fun _ => none
    let (m, o') := recordAll renamedCalls (enter Memory.empty) fun _ => none
    (Recorded (fun _ _ => True) (Relational.empty ⟨0, 0⟩)
        [(Relational.empty ⟨0, 0⟩, fun _ => none)] s o ∧
      (account? s "first").map (·.name) = some "old" ∧ Rooted s o) ∧
    Recorded (fun m c => c.Stays m) Memory.empty [(Memory.empty, fun _ => none)] m o' ∧
      (account? m "first").map (·.name) = some "old" ∧ Rooted m o' ∧
      ¬ Rooted ((Call.updateAccount movedAccount).run m).2 o' := by
  have hs := (Recorded.start : Recorded (fun _ _ => True) (Relational.empty ⟨0, 0⟩) [] _ _).enter
    |>.calls renamedCalls (by simp [Along, renamedCalls])
  have hm := (Recorded.start : Recorded (fun m c => c.Stays m) Memory.empty [] _ _).enter.calls
    renamedCalls ⟨trivial, trivial, trivial, fun _ => rfl, trivial, trivial, trivial⟩
  obtain ⟨-, hrooted, hrooted', hiff⟩ := accounts_rooted hs hm
  refine ⟨⟨hs, by rfl, hrooted⟩, hm, by rfl, hrooted', fun h => ?_⟩
  have hstays := (hiff (.updateAccount movedAccount)).mp h
  exact absurd (hstays rfl) (by decide)

/-- In memory an update takes an account to an asset that is not stored; on the tables the same
calls leave it on its own. -/
theorem account_moved :
    let calls := renamedCalls ++ [.updateAccount movedAccount]
    let (m, o) := recordAll calls Memory.empty fun _ => none
    let (s, _) := recordAll calls (Relational.empty ⟨0, 0⟩) fun _ => none
    Recorded (fun _ _ => True) Memory.empty [] m o ∧ o "first" = some "asset" ∧
      (account? m "first").map (·.assetId) = some "elsewhere" ∧
      (asset? m "elsewhere").isSome = false ∧
      (account? s "first").map (·.assetId) = some "asset" := by
  have h := (Recorded.start : Recorded (fun _ _ => True) Memory.empty [] _ _).calls
    (renamedCalls ++ [.updateAccount movedAccount]) (by simp [Along, renamedCalls])
  exact ⟨h, by rfl, by rfl, by rfl, by rfl⟩

end Custody.Store
