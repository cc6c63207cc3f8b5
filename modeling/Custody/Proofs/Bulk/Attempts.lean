import Custody.Proofs.Bulk.Report
import Custody.Proofs.Store.Reconcile
import Custody.Proofs.Store.Recording

/-!
What a bulk asks the store for on an asset where nobody holds the slot. The store is asked once, or
twice if it has refused the name: then for the name with the token behind it, under another id. A
third request there is not.
-/
namespace Custody.Bulk

open Store

def proposed (c : Candidate) (target : Target) (name id : String) (now : Time.Instant) : Account :=
  ({ c with name := name }.forAsset target.assetId).toAccount id now

def firstAccount (c : Candidate) (target : Target) (d : Draw) : Account :=
  proposed c target c.name d.id d.now

def secondAccount (c : Candidate) (target : Target) (d : Draw) : Account :=
  proposed c target (c.name ++ "_" ++ d.token) d.spare d.now

section Steps

variable {σ : Type} [Store σ] {c : Candidate} {target : Target} {d : Draw} {s s' s'' : σ}
  (hs : Seamless σ) (htype : c.secretType ∈ target.secretTypes)
  (hfree : accountBySlot? s target.assetId c.username c.secretType = none)

include hs hfree

theorem attempt_proposed {name id : String} {now : Time.Instant} {r : Except Error Unit}
    (h : insertAccount (proposed c target name id now) s = (r, s')) (policy : Policy)
    (supply : Supply) :
    attempt ({ c with name := name }.forAsset target.assetId) policy id now ⟨s, supply⟩ =
      (.ok (r.map fun _ => (proposed c target name id now, .created)), ⟨s', supply⟩) :=
  attempt_of_reconcile hs (reconcile_of_free hfree h supply)

include htype

theorem step_of_admitted (h : insertAccount (firstAccount c target d) s = (.ok (), s'))
    (policy : Policy) (supply : Supply) : step c policy target d ⟨s, supply⟩ =
      (.ok (.done target.assetId .created d.id), ⟨s', supply⟩) := by
  rw [step, if_pos htype, createFor_eq]
  exact Run.bind_of_ok (attempt_proposed hs hfree h policy supply) _

theorem step_of_refused {x : String} {r : Except Error Unit}
    (h : insertAccount (firstAccount c target d) s = (.error (.duplicate x), s'))
    (hfree' : accountBySlot? s' target.assetId c.username c.secretType = none)
    (h' : insertAccount (secondAccount c target d) s' = (r, s'')) (policy : Policy)
    (supply : Supply) : step c policy target d ⟨s, supply⟩ =
      (.ok (told target.assetId (r.map fun _ => (secondAccount c target d, .created))),
        ⟨s'', supply⟩) := by
  have hrun := attempt_proposed hs hfree h policy supply
  have hrun' := attempt_proposed hs hfree' h' policy supply
  rw [step, if_pos htype, createFor_eq]
  exact (Run.bind_of_ok hrun _).trans (Run.bind_of_ok hrun' _)

end Steps

variable {σ : Type} [Store σ] {good : σ → Prop} {refers : σ → Option String → Prop}
  {dated : Time.Instant → Time.Instant} {c : Candidate} {policy : Policy} {target : Target}
  {d : Draw} {s s' : σ}

/-- The step comes to this entry and this store and has asked for these accounts, one after the
other: it does so on the store itself, and with the requests on record. -/
def Asks (c : Candidate) (policy : Policy) (target : Target) (d : Draw) (s s' : σ) (e : Entry)
    (accounts : List Account) : Prop :=
  ∀ supply, step c policy target d ⟨s, supply⟩ = (.ok e, ⟨s', supply⟩) ∧
    ∀ asked, step c policy target d ⟨(⟨s, asked⟩ : Recording σ), supply⟩ =
      (.ok e, ⟨⟨s', asked ++ accounts⟩, supply⟩)

section Requests

variable (hs : Seamless σ) (htype : c.secretType ∈ target.secretTypes)
  (hfree : accountBySlot? s target.assetId c.username c.secretType = none)

include hs htype hfree

theorem asks_of_admitted (h : insertAccount (firstAccount c target d) s = (.ok (), s'))
    (policy : Policy) : Asks c policy target d s s' (.done target.assetId .created d.id)
      [firstAccount c target d] := by
  refine fun supply => ⟨step_of_admitted hs htype hfree h policy supply, fun asked => ?_⟩
  refine step_of_admitted (Recording.seamless hs) htype hfree ?_ policy supply
  rw [Recording.insertAccount_eq, h]

theorem asks_of_refused {x : String} {r : Except Error Unit}
    (h : insertAccount (firstAccount c target d) s = (.error (.duplicate x), s))
    (h' : insertAccount (secondAccount c target d) s = (r, s')) (policy : Policy) :
    Asks c policy target d s s'
      (told target.assetId (r.map fun _ => (secondAccount c target d, .created)))
      [firstAccount c target d, secondAccount c target d] := by
  refine fun supply => ⟨step_of_refused hs htype hfree h hfree h' policy supply, fun asked => ?_⟩
  have hins : insertAccount (firstAccount c target d) (⟨s, asked⟩ : Recording σ) =
      (.error (.duplicate x), ⟨s, asked ++ [firstAccount c target d]⟩) := by
    rw [Recording.insertAccount_eq, h]
  refine step_of_refused (Recording.seamless hs) htype hfree hins hfree ?_ policy supply
  rw [Recording.insertAccount_eq, h', List.append_assoc]
  rfl

end Requests

/-- The asset is there and takes the secret type, the slot is free, and the ids are new. -/
structure Vacant (c : Candidate) (target : Target) (d : Draw) (s : σ) : Prop where
  asset : (asset? s target.assetId).isSome
  secretType : c.secretType ∈ target.secretTypes
  slot : ∀ b, Stored s b → ¬ b.hasSlot target.assetId c.username c.secretType
  id : account? s d.id = none
  spare : account? s d.spare = none

/-- One request stores the account under the candidate's name if that is free. Else a second one
does, under the name with the token, or the step fails with the refusal of that. -/
structure Attempts (dated : Time.Instant → Time.Instant) (c : Candidate) (policy : Policy)
    (target : Target) (d : Draw) (s : σ) : Prop where
  named : ¬ NameTaken s target.assetId c.name → ∃ s',
    Asks c policy target d s s' (.done target.assetId .created d.id) [firstAccount c target d] ∧
    account? s' =
      Function.update (account? s) d.id (some ((firstAccount c target d).redated dated))
  suffixed : NameTaken s target.assetId c.name →
    ¬ NameTaken s target.assetId (c.name ++ "_" ++ d.token) → ∃ s',
    Asks c policy target d s s' (.done target.assetId .created d.spare)
      [firstAccount c target d, secondAccount c target d] ∧
    account? s' =
      Function.update (account? s) d.spare (some ((secondAccount c target d).redated dated))
  refused : NameTaken s target.assetId c.name →
    NameTaken s target.assetId (c.name ++ "_" ++ d.token) → ∃ reason,
    Asks c policy target d s s (.failed target.assetId ("uniqueness violation" ++ reason))
      [firstAccount c target d, secondAccount c target d]

theorem Vacant.slot_eq_none (hb : Bookkeeping good dated) (hgood : good s)
    (hv : Vacant c target d s) :
    accountBySlot? s target.assetId c.username c.secretType = none :=
  Option.eq_none_iff_forall_ne_some.mpr fun b hslot =>
    let ⟨hfills, hstored⟩ := hb.slot hgood hslot
    hv.slot b hstored hfills

theorem Vacant.rivals_iff (hv : Vacant c target d s) {name id : String} (now : Time.Instant)
    (hfresh : account? s id = none) {b : Account} (hb : Stored s b) :
    (proposed c target name id now).Rivals b ↔ b.hasName target.assetId name := by
  refine ⟨fun h => h.2.resolve_right (hv.slot b hb), fun h => ⟨fun heq => ?_, .inl h⟩⟩
  have hfresh' : account? s b.id = none := heq ▸ hfresh
  exact nomatch hb.symm.trans hfresh'

section Requests

variable (hb : Bookkeeping good dated) (ha : Admitting good refers) (hgood : good s)
  (hv : Vacant c target d s) {name id : String} (now : Time.Instant)
  (hfresh : account? s id = none)

include hb ha hgood hv hfresh

theorem Vacant.admitted (hrefers : refers s c.suFrom) (hname : ¬ NameTaken s target.assetId name) :
    ∃ s', insertAccount (proposed c target name id now) s = (.ok (), s') ∧ account? s' =
      Function.update (account? s) id (some ((proposed c target name id now).redated dated)) := by
  have hok := ha.admits (a := proposed c target name id now) hgood hv.asset hrefers hfresh
    fun b hb hrivals => hname ⟨b, hb, (hv.rivals_iff now hfresh hb).mp hrivals⟩
  have hrun : insertAccount (proposed c target name id now) s =
      (.ok (), (insertAccount (proposed c target name id now) s).2) := Prod.ext hok rfl
  exact ⟨_, hrun, Accounts.eq_update (hb.insert hgood hrun).2.2⟩

theorem Vacant.refused (hname : NameTaken s target.assetId name) :
    ∃ x, insertAccount (proposed c target name id now) s = (.error (.duplicate x), s) := by
  obtain ⟨b, hstored, hnames⟩ := hname
  have hrivals := (hv.rivals_iff now hfresh hstored).mpr hnames
  obtain ⟨x, hx⟩ := ha.refuses (a := proposed c target name id now) hgood hv.asset hstored hrivals
  have hrun : insertAccount (proposed c target name id now) s =
      (.error (.duplicate x), (insertAccount (proposed c target name id now) s).2) :=
    Prod.ext hx rfl
  exact ⟨x, Prod.ext hx (hb.insert_error hrun)⟩

end Requests

theorem attempts_of_admitting (hs : Seamless σ) (hb : Bookkeeping good dated)
    (ha : Admitting good refers) (hgood : good s) (hv : Vacant c target d s)
    (hrefers : refers s c.suFrom) (policy : Policy) : Attempts dated c policy target d s := by
  have hslot := hv.slot_eq_none hb hgood
  constructor
  case named =>
    intro hname
    obtain ⟨s', hins, hafter⟩ := hv.admitted hb ha hgood d.now hv.id hrefers hname
    exact ⟨s', asks_of_admitted hs hv.secretType hslot hins policy, hafter⟩
  case suffixed =>
    intro hname hsuffixed
    obtain ⟨x, hins⟩ := hv.refused hb ha hgood d.now hv.id hname
    obtain ⟨s', hins', hafter⟩ := hv.admitted hb ha hgood d.now hv.spare hrefers hsuffixed
    exact ⟨s', asks_of_refused hs hv.secretType hslot hins hins' policy, hafter⟩
  case refused =>
    intro hname hsuffixed
    obtain ⟨x, hins⟩ := hv.refused hb ha hgood d.now hv.id hname
    obtain ⟨y, hins'⟩ := hv.refused hb ha hgood d.now hv.spare hsuffixed
    have hmessage : (Error.duplicate y).message = "uniqueness violation" ++ (": " ++ y) := by
      rw [← String.append_assoc]
      rfl
    exact ⟨": " ++ y, hmessage ▸ asks_of_refused hs hv.secretType hslot hins hins' policy⟩

/-- On every store that keeps its records apart by their ids and to whose accounts the candidate
refers, if it refers to any: each step for a vacant slot makes one request or two, and ends as these
do. -/
theorem step_attempted (c : Candidate) (policy : Policy) (target : Target) (d : Draw) :
    (∀ m : Memory, m.records.Filed → Vacant c target d m →
      Attempts (fun date => date) c policy target d m) ∧
    ∀ s : Relational, s.tables.Keys → Supplied s c.suFrom → Vacant c target d s →
      Attempts (Tables.readDate s.clock) c policy target d s := by
  constructor
  · intro m hfiled hv
    exact attempts_of_admitting Memory.seamless Memory.bookkeeping Memory.admitting hfiled hv
      trivial policy
  · intro s hkeys hsupplied hv
    exact attempts_of_admitting Relational.seamless (Relational.bookkeeping s.clock)
      (Relational.admitting s.clock) ⟨hkeys, rfl⟩ hv hsupplied policy

def deployCandidate : Candidate :=
  { squeezedCandidate with assetId := "", username := "deploy" }

def passwordTarget : Target := ⟨"asset", .ofList [.password]⟩

def deployDraw : Draw := ⟨"third", "fourth", "token", ⟨0, 0⟩⟩

theorem vacant_of_look_ups (hd : Decided good dated) (hgood : good s)
    (htype : c.secretType ∈ target.secretTypes) (hasset : (asset? s target.assetId).isSome)
    (hslot : accountBySlot? s target.assetId c.username c.secretType = none)
    (hid : account? s d.id = none) (hspare : account? s d.spare = none) :
    Vacant c target d s where
  asset := hasset
  secretType := htype
  slot _ hb hfills := nomatch hslot.symm.trans ((hd.slot hgood).mpr ⟨hb, hfills⟩)
  id := hid
  spare := hspare

theorem step_attempted_deploy :
    let m : Memory := renamedCalls.foldl (fun m c => (c.run m).2) (Store.enter Memory.empty)
    let s : Relational := renamedCalls.foldl (fun s c => (c.run s).2)
      (Store.enter (Relational.empty ⟨0, 0⟩))
    (Vacant deployCandidate passwordTarget deployDraw m ∧ NameTaken m "asset" "root" ∧
      Attempts (fun date => date) deployCandidate .error passwordTarget deployDraw m) ∧
    Supplied s none ∧ Vacant deployCandidate passwordTarget deployDraw s ∧
      NameTaken s "asset" "root" ∧
      Attempts (Tables.readDate ⟨0, 0⟩) deployCandidate .error passwordTarget deployDraw s := by
  intro m s
  have hm := (Reachable.start : Reachable Memory.empty [] _).enter.calls renamedCalls
  have hs := (Reachable.start : Reachable (Relational.empty ⟨0, 0⟩) [] _).enter.calls renamedCalls
  have hv : Vacant deployCandidate passwordTarget deployDraw m := vacant_of_look_ups Memory.decided
    (sound_of_reachable hm) (by decide) rfl rfl rfl rfl
  have hv' : Vacant deployCandidate passwordTarget deployDraw s := vacant_of_look_ups
    (Relational.decided ⟨0, 0⟩) (Relational.kept_of_reachable hs) (by decide) rfl rfl rfl rfl
  have h := step_attempted deployCandidate .error passwordTarget deployDraw
  exact ⟨⟨hv, ⟨nameHolder, rfl, rfl⟩, h.1 m (filed_of_reachable hm) hv⟩, nofun, hv',
    ⟨nameHolder, rfl, rfl⟩, h.2 s (keys_of_reachable hs) nofun hv'⟩

/-- Tables refuse an account that is to switch from one that is not there, for another reason than
its name: the step fails with that, after one request. -/
theorem step_unsupplied :
    let c : Candidate := { deployCandidate with name := "deploy", suFrom := some "ghost" }
    let s : Relational := renamedCalls.foldl (fun s c => (c.run s).2)
      (Store.enter (Relational.empty ⟨0, 0⟩))
    s.tables.Valid ∧ Vacant c passwordTarget deployDraw s ∧ ¬ NameTaken s "asset" "deploy" ∧
      Asks c .skip passwordTarget deployDraw s s
        (.failed "asset" "database error: FOREIGN KEY constraint failed")
        [firstAccount c passwordTarget deployDraw] ∧
      ¬ Attempts (Tables.readDate ⟨0, 0⟩) c .skip passwordTarget deployDraw s := by
  intro c s
  have hs := (Reachable.start : Reachable (Relational.empty ⟨0, 0⟩) [] _).enter.calls renamedCalls
  have hvalid := Tables.valid_of_reachable hs
  have hkept : Relational.Kept ⟨0, 0⟩ s := Relational.kept_of_valid hvalid
  have hd := Relational.decided ⟨0, 0⟩
  have hfree : ¬ NameTaken s "asset" "deploy" := fun ⟨b, hb⟩ =>
    nomatch ((hd.name hkept).mpr hb).symm.trans (rfl : accountByName? s "asset" "deploy" = none)
  have hasks : Asks c .skip passwordTarget deployDraw s s
      (.failed "asset" "database error: FOREIGN KEY constraint failed")
      [firstAccount c passwordTarget deployDraw] := fun supply => ⟨rfl, fun asked => rfl⟩
  refine ⟨hvalid, vacant_of_look_ups hd hkept (by decide) rfl rfl rfl rfl, hfree, hasks, ?_⟩
  intro h
  obtain ⟨s', hnamed, -⟩ := h.named hfree
  have hsupply : Supply := ⟨fun _ => deployDraw, 0⟩
  exact nomatch ((hasks hsupply).1.symm.trans (hnamed hsupply).1)

end Custody.Bulk
