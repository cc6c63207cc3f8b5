import Custody.Proofs.Account.History
import Custody.Proofs.Protocol
import Custody.Service

/-!
How what a payload says reaches an account. A member that is no control and that no template hands
on has in the checked values what it has in the payload; the secret and the account to switch from
are all that the values change of an account's lasting state.
-/
namespace Custody

namespace Field

def given : Option Json.Value → Option Json.Value
  | some .null => none
  | v => v

def lay (defaults request : Json.Object) (spec : Spec) : Json.Object :=
  if Keyed.contains request spec.name then request
  else match Keyed.get? defaults spec.name with
    | none => request
    | some .null => request
    | some v => Keyed.place request spec.name v

theorem get?_lay (defaults request : Json.Object) (spec : Spec) (key : String) :
    (lay defaults request spec).get? key =
      (request.get? key).or (if spec.name = key then given (defaults.get? key) else none) := by
  unfold lay Keyed.contains
  by_cases hkey : spec.name = key
  · subst hkey
    rw [if_pos rfl]
    cases hrequest : request.get? spec.name with
    | some v => simp [hrequest]
    | none =>
      cases hdefault : defaults.get? spec.name with
      | none => simp [hrequest, given]
      | some v => cases v <;> simp [hrequest, given, Keyed.get?_place_self]
  · rw [if_neg hkey, Option.or_none]
    split
    · rfl
    · split
      · rfl
      · rfl
      · exact Keyed.get?_place_of_ne _ _ (Ne.symm hkey)

theorem get?_merge (schema : Schema) (defaults request : Json.Object) (key : String) :
    (merge schema defaults request).get? key =
      (request.get? key).or (if declares schema key then given (defaults.get? key) else none) := by
  have hmerge (schema : Schema) (request : Json.Object) :
      merge schema defaults request = schema.foldl (lay defaults) request := rfl
  rw [hmerge]
  induction schema generalizing request with
  | nil => simp [declares]
  | cons spec rest ih =>
    have hdeclares : declares (spec :: rest) key = (spec.name == key || declares rest key) := rfl
    rw [List.foldl_cons, ih, get?_lay, hdeclares, Option.or_assoc]
    congr 1
    by_cases hkey : spec.name = key
    · cases hdefault : given (defaults.get? key) <;> simp [hkey]
    · simp [hkey]

theorem get?_merge_of_none {defaults : Json.Object} {key : String}
    (h : defaults.get? key = none) (schema : Schema) (request : Json.Object) :
    (merge schema defaults request).get? key = request.get? key := by
  rw [get?_merge, h]
  simp [given]

end Field

theorem Template.get?_handedOn (t : Template) (key : String) (names : List String)
    (values : Json.Object) :
    (names.foldl (fun values name =>
      match t.field name with
      | .null => values
      | v => values.place name v) values).get? key =
      (if key ∈ names then Field.given (some (t.field key)) else none).or (values.get? key) := by
  induction names generalizing values with
  | nil => rfl
  | cons name rest ih =>
    rw [List.foldl_cons, ih]
    by_cases hkey : key = name
    · subst hkey
      rw [if_pos List.mem_cons_self]
      cases hfield : t.field key <;> split <;> simp [Field.given, Keyed.get?_place_self]
    · rw [if_congr (List.mem_cons.trans (or_iff_right hkey)) rfl rfl]
      congr 1
      split
      · rfl
      · exact Keyed.get?_place_of_ne _ _ hkey

theorem Template.get?_valuesFor (t : Template) (target : Field.Schema) (key : String) :
    (t.valuesFor target).get? key =
      if key ∈ handedOn target then Field.given (some (t.field key)) else none :=
  (t.get?_handedOn key (handedOn target) []).trans (Option.or_none ..)

namespace Service

theorem get?_foldl_erase {key : String} {names : List String} (hkey : key ∉ names)
    (o : Json.Object) : (names.foldl Keyed.erase o).get? key = o.get? key := by
  induction names generalizing o with
  | nil => rfl
  | cons name rest ih =>
    obtain ⟨hne, hrest⟩ := List.ne_and_not_mem_of_not_mem_cons hkey
    rw [List.foldl_cons, ih hrest, Keyed.get?_erase_of_ne _ hne]

theorem get?_take {payload rest : Json.Object} {controls : Controls}
    (h : Controls.take payload = .ok (controls, rest)) {key : String} (hkey : key ∉ controlNames) :
    rest.get? key = payload.get? key := by
  obtain ⟨template, _, h⟩ := exists_of_bind_eq_ok h
  obtain ⟨policy, _, h⟩ := exists_of_bind_eq_ok h
  obtain ⟨pushNow, _, h⟩ := exists_of_bind_eq_ok h
  obtain ⟨params, _, h⟩ := exists_of_bind_eq_ok h
  cases h
  exact get?_foldl_erase hkey payload

theorem text?_take {payload rest : Json.Object} {controls : Controls}
    (h : Controls.take payload = .ok (controls, rest)) {key : String} (hkey : key ∉ controlNames) :
    text? rest key = text? payload key := by
  rw [text?, text?, get?_take h hkey]

theorem control_congr {α : Type} {payload payload' : Json.Object} {name : String}
    (h : payload'.get? name = payload.get? name) (wanted : String) (absent : α)
    (parse : Json.Value → Option (Except Error α)) :
    control payload' name wanted absent parse = control payload name wanted absent parse := by
  unfold control
  rw [h]

theorem take_map {payload payload' : Json.Object}
    (hsame : ∀ key ∈ controlNames, payload'.get? key = payload.get? key) :
    Controls.take payload' =
      (Controls.take payload).map fun r => (r.1, controlNames.foldl Keyed.erase payload') := by
  unfold Controls.take
  simp only [control_congr (hsame "template" (by decide)),
    control_congr (hsame "on_invalid" (by decide)), control_congr (hsame "push_now" (by decide)),
    control_congr (hsame "params" (by decide))]
  generalize control payload "template" _ _ _ = template
  generalize control payload "on_invalid" _ _ _ = policy
  generalize control payload "push_now" _ _ _ = pushNow
  generalize control payload "params" _ _ _ = params
  cases template <;> cases policy <;> cases pushNow <;> cases params <;> rfl

theorem take_congr {payload payload' rest : Json.Object} {controls : Controls}
    (hsame : ∀ key ∈ controlNames, payload'.get? key = payload.get? key)
    (h : Controls.take payload = .ok (controls, rest)) :
    ∃ rest', Controls.take payload' = .ok (controls, rest') := by
  rw [take_map hsame, h]
  exact ⟨_, rfl⟩

theorem requiredText_eq_ok {values : Json.Object} {key s : String}
    (h : requiredText values key = .ok s) : text? values key = some s := by
  unfold requiredText at h
  split at h
  · next t ht =>
    cases h
    exact (Option.filter_eq_some_iff.mp ht).1
  · cases h

theorem candidateOf_eq_ok {values : Json.Object} {assetId name username : String}
    {suFrom templateId : Option String} {c : Candidate}
    (h : candidateOf values assetId name username suFrom templateId = .ok c) :
    c.assetId = assetId ∧ c.name = name ∧ c.username = username ∧
      (secretType? values).map (·.getD .password) = .ok c.secretType ∧ c.suFrom = suFrom := by
  obtain ⟨secretType, hsecretType, h⟩ := exists_of_bind_eq_ok h
  cases h
  exact ⟨rfl, rfl, rfl, hsecretType ▸ rfl, rfl⟩

theorem applyValues_eq (values : Json.Object) (type : Option SecretType) (a : Account) :
    applyValues values type a = { a with
      secretType := type.getD a.secretType
      secret := (text? values "secret").or a.secret
      version := if (text? values "secret").or a.secret = a.secret then a.version else a.version + 1
      privileged := (flag? values "privileged").getD a.privileged
      isActive := (flag? values "is_active").getD a.isActive
      comment := (text? values "comment").getD a.comment
      suFrom := if values.contains "su_from" then text? values "su_from" else a.suFrom } := by
  unfold applyValues
  cases text? values "secret" with
  | none => simp
  | some s => simp only [Account.setSecret_eq]; rfl

theorem applyValues_suFrom {values : Json.Object} (h : values.contains "su_from" = false)
    (secretType : Option SecretType) (a : Account) :
    (applyValues values secretType a).suFrom = a.suFrom := by
  simp [applyValues_eq, h]

theorem applyValues_rewritten (values : Json.Object) (secretType : Option SecretType)
    (a : Account) :
    Account.Rewritten (text? values "secret") (text? values "su_from") a
      (applyValues values secretType a) := by
  rw [applyValues_eq]
  refine ⟨rfl, rfl, rfl, rfl, rfl, ?_⟩
  dsimp only
  split
  · exact .inr rfl
  · exact .inl rfl

end Service

end Custody
