import Custody.Proofs.Config.Writing

/-!
Setting a value: which values are taken, what the setting shows afterwards, and what stays as it
was. A refusal leaves everything that is shown or written as it was, but not the configuration
itself: a section of settings is there afterwards even if there was none.
-/
namespace Custody

/-! ### Paths below the home directory -/

namespace Path

def closing (path : String) : String :=
  if path.isEmpty || path.toList.getLast? = some '/' then "" else "/"

theorem join_of_relative {base rest : String} (h : rest.toList.head? ≠ some '/') :
    join base rest = base ++ closing base ++ rest := by
  unfold join closing
  split
  · next hrest => simp [hrest] at h
  · split <;> simp

def homed (home path : String) : String :=
  if path = "~" then home
  else if "~/".toList <+: path.toList then home ++ closing home ++ .ofList (path.toList.drop 2)
  else path

theorem expandHome_eq_homed {home path : String} (h : ¬ "~//".toList <+: path.toList) :
    expandHome home path = homed home path := by
  unfold expandHome
  split
  · next hpath =>
    have halone : path = "~" := String.toList_injective hpath
    rw [homed, if_pos halone]
  · next rest hpath =>
    have hlonger : path ≠ "~" := by
      rintro rfl
      simp at hpath
    have hrelative : (String.ofList rest).toList.head? ≠ some '/' := by
      intro hslash
      obtain ⟨tail, rfl⟩ := List.head?_eq_some_iff.mp (String.toList_ofList ▸ hslash)
      simp [hpath] at h
    rw [join_of_relative hrelative, homed, if_neg hlonger, hpath]
    simp
  · next halone hbelow =>
    have hlonger : path ≠ "~" := by
      rintro rfl
      exact halone rfl
    have hother : ¬ "~/".toList <+: path.toList := by
      rintro ⟨rest, hrest⟩
      exact hbelow rest hrest.symm
    rw [homed, if_neg hlonger, if_neg hother]

theorem expandHome_root (home rest : String) : expandHome home ("~//" ++ rest) = "/" ++ rest := by
  have hpath : ("~//" ++ rest).toList = '~' :: '/' :: '/' :: rest.toList := by simp
  have hroot : String.ofList ('/' :: rest.toList) = "/" ++ rest := by
    apply String.toList_injective
    simp
  simp [expandHome, hpath, join, hroot]

end Path

namespace Config

/-! ### Values that are taken -/

/-- The values that a setting takes: a conflict policy and a format of logs are known by name, all
else is free. -/
def Key.Takes (value : String) : Key → Prop
  | .policy => value ∈ ["error", "skip", "update"]
  | .logFormat => value ∈ ["pretty", "json"]
  | _ => True

theorem ofWire?_isSome_iff {s : String} :
    (Choice.ofWire? (α := Policy) s).isSome ↔ s ∈ ["error", "skip", "update"] := by
  constructor
  · intro h
    obtain ⟨p, hp⟩ := Option.isSome_iff_exists.mp h
    rw [← Choice.wire_of_ofWire? hp]
    cases p <;> decide
  · intro h
    simp only [List.mem_cons, List.not_mem_nil, or_false] at h
    rcases h with rfl | rfl | rfl <;> rfl

theorem check_eq_ok_iff {k : Key} {value : String} : check k value = .ok () ↔ k.Takes value := by
  cases k with
  | policy =>
    unfold check Choice.parse Key.Takes
    rw [← ofWire?_isSome_iff]
    cases Choice.ofWire? (α := Policy) value <;> simp [Except.map]
  | logFormat => simp [check, Key.Takes, or_iff_not_imp_left]
  | dataPath | logLevel | org => simp [check, Key.Takes]

theorem set_cases (c : Config) (key value : String) :
    (∃ k : Key, k.name = key ∧ k.Takes value ∧ c.set key value =
      (.ok (), { c with defaults := some (c.settings.set k (some value)) })) ∨
    (¬ ∃ k : Key, k.name = key ∧ k.Takes value) ∧
      ∃ e, c.set key value = (.error e, { c with defaults := some c.settings }) := by
  cases hkey : Key.ofName? key with
  | none =>
    right
    constructor
    · rintro ⟨k, rfl, -⟩
      simp at hkey
    · exact ⟨unknownKey key, by simp [set, hkey, settings]⟩
  | some k =>
    obtain rfl := Key.name_of_ofName? hkey
    cases hcheck : check k value with
    | ok =>
      left
      exact ⟨k, rfl, check_eq_ok_iff.mp hcheck, by simp [set, hcheck, settings]⟩
    | error e =>
      right
      constructor
      · rintro ⟨l, hname, htakes⟩
        obtain rfl := Key.name_injective hname
        simp [check_eq_ok_iff.mpr htakes] at hcheck
      · exact ⟨e, by simp [set, hcheck, settings]⟩

/-! ### What is shown -/

theorem valueOf_congr {c d : Config} {k : Key} (h : c.get k = d.get k) (home : String) :
    c.valueOf home k = d.valueOf home k := by
  cases k with
  | dataPath | policy | logLevel | org => simp [valueOf, dataPath, policy, logLevel, org, h]
  | logFormat =>
    have hjson : c.logsJson = d.logsJson := by rw [logsJson, logsJson, h]
    rw [valueOf, valueOf, hjson]

theorem value_congr {c d : Config} {home key : String}
    (h : ∀ k : Key, k.name = key → c.get k = d.get k) : c.value home key = d.value home key := by
  unfold value
  cases hkey : Key.ofName? key with
  | none => rfl
  | some k => exact valueOf_congr (h k (Key.name_of_ofName? hkey)) home

@[simp] theorem value_name (c : Config) (home : String) (k : Key) :
    c.value home k.name = c.valueOf home k := by
  simp [value]

theorem valueOf_of_get {c : Config} {k : Key} {value : String} (htakes : k.Takes value)
    (hget : c.get k = some value) (home : String) : c.valueOf home k =
      .ok (if k = .dataPath then Path.expandHome home value else value) := by
  cases k with
  | dataPath | logLevel | org => simp [valueOf, dataPath, logLevel, org, hget]
  | policy =>
    obtain ⟨p, hp⟩ := Option.isSome_iff_exists.mp (ofWire?_isSome_iff.mpr htakes)
    simp [valueOf, policy, hget, hp, Except.map, Choice.wire_of_ofWire? hp]
  | logFormat =>
    simp only [Key.Takes, List.mem_cons, List.not_mem_nil, or_false] at htakes
    rcases htakes with rfl | rfl <;> simp [valueOf, logsJson, hget] <;> decide +kernel

/-! ### The laws of setting -/

/-- What comes of a value that is taken. A path is shown with the home directory in place of its
tilde, unless a second slash follows the first. -/
structure Taken (home key value : String) (c c' : Config) : Prop where
  own : key ≠ "data_path" → c'.value home key = .ok value
  path : key = "data_path" → ¬ "~//".toList <+: value.toList →
    c'.value home key = .ok (Path.homed home value)
  root : key = "data_path" → ∀ rest, value = "~//" ++ rest →
    c'.value home key = .ok ("/" ++ rest)
  others : ∀ other, other ≠ key → c'.value home other = c.value home other
  labels : c'.labels = c.labels

structure Refused (home : String) (c c' : Config) : Prop where
  unchanged_iff : c' = c ↔ c.defaults.isSome
  values : ∀ key, c'.value home key = c.value home key
  labels : c'.labels = c.labels
  document : c'.print = c.print

theorem taken_of_takes {c : Config} {k : Key} {value : String} (h : k.Takes value)
    (home : String) : Taken home k.name value c
      { c with defaults := some (c.settings.set k (some value)) } := by
  let c' : Config := { c with defaults := some (c.settings.set k (some value)) }
  have hself : c'.get k = some value := Settings.get_set_self c.settings k (some value)
  have hother : ∀ l, l ≠ k → c'.get l = c.get l := by
    intro l hl
    exact (Settings.get_set_of_ne c.settings (some value) hl).trans (c.get_settings l)
  have hshown : c'.value home k.name =
      .ok (if k = .dataPath then Path.expandHome home value else value) := by
    rw [value_name]
    exact valueOf_of_get h hself home
  have hpath : k.name = "data_path" → k = .dataPath := by cases k <;> decide
  constructor
  case own =>
    intro hkey
    rw [hshown, if_neg]
    rintro rfl
    exact hkey rfl
  case path =>
    intro hkey htilde
    rw [hshown, if_pos (hpath hkey), Path.expandHome_eq_homed htilde]
  case root =>
    rintro hkey rest rfl
    rw [hshown, if_pos (hpath hkey), Path.expandHome_root]
  case others =>
    intro other hne
    apply value_congr
    rintro l rfl
    exact hother l fun hl => hne (congrArg Key.name hl)
  case labels => rfl

theorem refused_section (c : Config) (home : String) :
    Refused home c { c with defaults := some c.settings } := by
  constructor
  case unchanged_iff =>
    cases c with
    | mk defaults labels => cases defaults <;> simp [settings]
  case values =>
    intro key
    apply value_congr
    intro k _
    exact c.get_settings k
  case labels => rfl
  case document =>
    cases c with
    | mk defaults labels => cases defaults <;> rfl

/-- A value that is taken is what its setting shows, and nothing else changes. One that is refused
changes nothing that is shown or written, and nothing at all where there is a section of
settings. -/
theorem set_lawful (c : Config) (home key value : String) :
    ((c.set key value).1 = .ok () ↔ ∃ k : Key, k.name = key ∧ k.Takes value) ∧
      ((c.set key value).1 = .ok () → Taken home key value c (c.set key value).2) ∧
      ((c.set key value).1 ≠ .ok () → Refused home c (c.set key value).2) := by
  rcases set_cases c key value with ⟨k, rfl, htakes, hset⟩ | ⟨hrefused, e, hset⟩
  · rw [hset]
    have htaken := taken_of_takes (c := c) htakes home
    exact ⟨iff_of_true rfl ⟨k, rfl, htakes⟩, fun _ => htaken, fun h => absurd rfl h⟩
  · rw [hset]
    exact ⟨iff_of_false nofun hrefused, nofun, fun _ => refused_section c home⟩

theorem set_lawful_acme :
    (Config.empty.set "data_path" "~/acme").1 = .ok () ∧
      (Config.empty.set "data_path" "~/acme").2.value "/root" "data_path" = .ok "/root/acme" ∧
      ((⟨some .empty, []⟩ : Config).set "on_invalid" "explode").1 ≠ .ok () ∧
      ((⟨some .empty, []⟩ : Config).set "on_invalid" "explode").2 = ⟨some .empty, []⟩ := by
  have htaken := (set_lawful .empty "/root" "data_path" "~/acme").2.1 rfl
  have hrefused := (set_lawful ⟨some .empty, []⟩ "/root" "on_invalid" "explode").2.2 nofun
  exact ⟨rfl, htaken.path rfl (by decide), nofun, hrefused.unchanged_iff.mpr rfl⟩

/-- A refusal makes the section of settings, and a second slash loses the home directory. -/
theorem unlawful_settings :
    (Config.empty.set "editor" "vi").1 = .error (unknownKey "editor") ∧
      (Config.empty.set "editor" "vi").2 ≠ Config.empty ∧
      (Config.empty.set "data_path" "~//acme").1 = .ok () ∧
      (Config.empty.set "data_path" "~//acme").2.value "/root" "data_path" = .ok "/acme" ∧
      Path.homed "/root" "~//acme" = "/root//acme" :=
  ⟨rfl, by decide, rfl, rfl, by decide⟩

end Config

end Custody
