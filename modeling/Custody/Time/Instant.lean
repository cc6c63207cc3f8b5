/-!
Instants on the proleptic Gregorian calendar in UTC, and their RFC 3339 text. Days are counted in
years that begin in March, so that the leap day is the last of its year.
-/
namespace Custody.Time

/-- Seconds since 1970-01-01T00:00:00Z and nanoseconds on top; from 10^9 nanoseconds on the instant
lies in a leap second. -/
structure Instant where
  seconds : Int
  nanos : Nat
deriving DecidableEq, Repr, Inhabited

structure Date where
  year : Int
  month : Nat
  day : Nat
deriving DecidableEq, Repr

def Date.toDays (d : Date) : Int :=
  let y := if d.month ≤ 2 then d.year - 1 else d.year
  let era := Int.fdiv y 400
  let yearOfEra := y - era * 400
  let shifted : Int := ((d.month + 9) % 12 : Nat)
  let dayOfYear := (153 * shifted + 2) / 5 + (d.day - 1 : Int)
  era * 146097 + (yearOfEra * 365 + yearOfEra / 4 - yearOfEra / 100 + dayOfYear) - 719468

def Date.ofDays (days : Int) : Date :=
  let z := days + 719468
  let era := Int.fdiv z 146097
  let doe := z - era * 146097
  let yearOfEra := (doe - doe / 1460 + doe / 36524 - doe / 146096) / 365
  let dayOfYear := doe - (365 * yearOfEra + yearOfEra / 4 - yearOfEra / 100)
  let shifted := (5 * dayOfYear + 2) / 153
  let day := dayOfYear - (153 * shifted + 2) / 5 + 1
  let month := if shifted < 10 then shifted + 3 else shifted - 9
  ⟨yearOfEra + era * 400 + (if month ≤ 2 then 1 else 0), month.toNat, day.toNat⟩

example : Date.ofDays 0 = ⟨1970, 1, 1⟩ ∧ (⟨2024, 2, 29⟩ : Date).toDays = 19782 ∧
    Date.ofDays 19782 = ⟨2024, 2, 29⟩ ∧ Date.ofDays (-719529) = ⟨-1, 12, 31⟩ := by decide

def isLeapYear (year : Int) : Bool := year % 4 == 0 && (year % 100 != 0 || year % 400 == 0)

def daysInMonth (year : Int) (month : Nat) : Nat :=
  if month = 2 then (if isLeapYear year then 29 else 28)
  else if month ∈ [4, 6, 9, 11] then 30 else 31

def Instant.date (i : Instant) : Date := .ofDays (Int.fdiv i.seconds 86400)

def padded (width n : Nat) : String :=
  let digits := Nat.toDigits 10 n
  .ofList (List.replicate (width - digits.length) '0' ++ digits)

def yearText (year : Int) : String :=
  if 0 ≤ year ∧ year ≤ 9999 then padded 4 year.toNat
  else (if year < 0 then "-" else "+") ++ padded 4 year.natAbs

/-- No digits for a whole second, else three, six or nine of them. -/
def fractionText (nanos : Nat) : String :=
  if nanos = 0 then ""
  else if nanos % 1000000 = 0 then "." ++ padded 3 (nanos / 1000000)
  else if nanos % 1000 = 0 then "." ++ padded 6 (nanos / 1000)
  else "." ++ padded 9 nanos

def Instant.text (i : Instant) (zone : String) : String :=
  let d := i.date
  let s := (Int.fmod i.seconds 86400).toNat
  yearText d.year ++ "-" ++ padded 2 d.month ++ "-" ++ padded 2 d.day ++ "T" ++
    padded 2 (s / 3600) ++ ":" ++ padded 2 (s / 60 % 60) ++ ":" ++
    padded 2 (s % 60 + i.nanos / 1000000000) ++ fractionText (i.nanos % 1000000000) ++ zone

/-- A year of four digits: the dates whose strict RFC 3339 text can be read back. -/
def Instant.isPlain (i : Instant) : Bool := 0 ≤ i.date.year && i.date.year ≤ 9999

/-! ### Ages in words: the largest unit that fits, in whole numbers of it -/

/-- A unit of ages: one of it is said of more than `one` seconds, several of more than `several`. -/
structure AgeUnit where
  seconds : Nat
  one : Nat
  several : Nat
  single : String
  plural : String

def ageUnits : List AgeUnit :=
  let day := 86400
  [⟨365 * day, 345 * day, 547 * day, "a year", "years"⟩,
    ⟨30 * day, 29 * day, 45 * day, "a month", "months"⟩,
    ⟨7 * day, 6 * day + 43200, 10 * day + 43200, "a week", "weeks"⟩,
    ⟨day, 22 * 3600, 36 * 3600, "a day", "days"⟩,
    ⟨3600, 45 * 60, 90 * 60, "an hour", "hours"⟩, ⟨60, 45, 90, "a minute", "minutes"⟩]

def spanText (seconds : Nat) : String :=
  match ageUnits.find? (·.one < seconds) with
  | none => toString seconds ++ " seconds"
  | some u =>
    if u.several < seconds then toString (max (seconds / u.seconds) 2) ++ " " ++ u.plural
    else u.single

def Instant.age (i now : Instant) : String :=
  let nanos := (now.seconds - i.seconds) * 1000000000 + (now.nanos - i.nanos : Int)
  let seconds := nanos.natAbs / 1000000000
  if seconds ≤ 10 then "now"
  else if 0 < nanos then spanText seconds ++ " ago"
  else "in " ++ spanText seconds

example : (⟨0, 0⟩ : Instant).age ⟨10, 999999999⟩ = "now" ∧
    (⟨0, 0⟩ : Instant).age ⟨60, 0⟩ = "a minute ago" ∧
    (⟨0, 0⟩ : Instant).age ⟨7200, 0⟩ = "2 hours ago" ∧
    (⟨7200, 0⟩ : Instant).age ⟨0, 0⟩ = "in 2 hours" := by decide

end Custody.Time
