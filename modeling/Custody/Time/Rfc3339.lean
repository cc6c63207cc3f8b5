import Custody.Text.Blank
import Custody.Time.Instant

/-!
Reading RFC 3339 text with the usual liberties: blanks between the parts, fields of fewer digits,
signed years of any length, `UTC` or a lower-case `z` for the zero offset.
-/
namespace Custody.Time

inductive Fault where
  | outOfRange | impossible | invalid | tooShort | tooLong
deriving DecidableEq, Repr

def Fault.message : Fault → String
  | outOfRange => "input is out of range"
  | impossible => "no possible date and time matching input"
  | invalid => "input contains invalid characters"
  | tooShort => "premature end of input"
  | tooLong => "trailing input"

namespace Rfc3339

def skipBlanks (cs : List Char) : List Char := cs.dropWhile Text.isBlank

def valueOf (digits : List Char) : Nat :=
  digits.foldl (fun n c => n * 10 + (c.toNat - '0'.toNat)) 0

def number (width : Nat) (cs : List Char) : Except Fault (Nat × List Char) :=
  let digits := (cs.take width).takeWhile Char.isDigit
  match cs with
  | [] => .error .tooShort
  | _ =>
    if digits = [] then .error .invalid
    else if 0x8000000000000000 ≤ valueOf digits then .error .outOfRange
    else .ok (valueOf digits, cs.drop digits.length)

def field (low high : Nat) (cs : List Char) : Except Fault (Nat × List Char) := do
  let (n, rest) ← number 2 (skipBlanks cs)
  if low ≤ n ∧ n ≤ high then return (n, rest) else .error .outOfRange

def yearInRange (year : Int) : Except Fault Int :=
  if -2147483648 ≤ year ∧ year ≤ 2147483647 then .ok year else .error .outOfRange

def year (cs : List Char) : Except Fault (Int × List Char) := do
  match skipBlanks cs with
  | '-' :: rest =>
    let (n, rest) ← number rest.length rest
    return (← yearInRange (-(n : Int)), rest)
  | '+' :: rest =>
    let (n, rest) ← number rest.length rest
    return (← yearInRange (n : Int), rest)
  | cs =>
    let (n, rest) ← number 4 cs
    return (← yearInRange (n : Int), rest)

def mark (c : Char) (cs : List Char) : Except Fault (List Char) :=
  match skipBlanks cs with
  | [] => .error .tooShort
  | d :: rest => if d = c then .ok rest else .error .invalid

/-- Nine digits behind a point count; further ones are passed over. -/
def fraction (cs : List Char) : Except Fault (Nat × List Char) :=
  match cs with
  | '.' :: rest => do
    let (_, after) ← number 9 rest
    let digits := (rest.take 9).takeWhile Char.isDigit
    return (valueOf (digits ++ .replicate (9 - digits.length) '0'), after.dropWhile Char.isDigit)
  | cs => .ok (0, cs)

def twoDigits (highFirst : Char) (cs : List Char) : Except Fault (Nat × List Char) :=
  match cs with
  | a :: b :: rest =>
    if a.isDigit && b.isDigit then
      if a ≤ highFirst then .ok (valueOf [a, b], rest) else .error .outOfRange
    else .error .invalid
  | [c] => if c.toNat < 0x80 then .error .tooShort else .error .invalid
  | [] => .error .tooShort

def offset (cs : List Char) : Except Fault (Int × List Char) :=
  match cs with
  | 'Z' :: rest => .ok (0, rest)
  | 'z' :: rest => .ok (0, rest)
  | c :: rest => do
    let negative ←
      if c = '+' then pure false
      else if c = '-' ∨ c = '−' then pure true
      else .error .invalid
    let (hours, rest) ← twoDigits '9' rest
    let (minutes, rest) ← twoDigits '5' (rest.dropWhile fun c => c = ':' || Text.isBlank c)
    let seconds : Int := ((hours * 3600 + minutes * 60 : Nat) : Int)
    return (if negative then -seconds else seconds, rest)
  | [] => .error .tooShort

def zone (cs : List Char) : Except Fault (Int × List Char) :=
  match cs with
  | u :: t :: c :: rest =>
    if u.toUpper = 'U' ∧ t.toUpper = 'T' ∧ c.toUpper = 'C' then .ok (0, rest) else offset cs
  | cs => offset cs

def separator (cs : List Char) : Except Fault (List Char) :=
  match cs with
  | [] => .error .tooShort
  | c :: rest => if c = 't' ∨ c = 'T' ∨ c = ' ' then .ok rest else .error .invalid

def hasYear (y : Int) : Bool := -262143 ≤ y && y ≤ 262142

end Rfc3339

open Rfc3339 in
/-- The instant that a text names. Its date has to be one of the calendar both as it is written and
in UTC. -/
def Instant.read (s : String) : Except Fault Instant := do
  let (y, cs) ← year s.toList
  let (month, cs) ← field 1 12 (← mark '-' cs)
  let (day, cs) ← field 1 31 (← mark '-' cs)
  let (hour, cs) ← field 0 23 (← separator cs)
  let (minute, cs) ← field 0 59 (← mark ':' cs)
  let (second, cs) ← field 0 60 (← mark ':' cs)
  let (nanos, cs) ← fraction cs
  let (east, cs) ← zone (skipBlanks cs)
  if skipBlanks cs ≠ [] then .error .tooLong
  else if !hasYear y ∨ daysInMonth y month < day then .error .outOfRange
  else if 86400 ≤ east.natAbs then .error .outOfRange
  else
    let leap := second = 60
    let clock : Nat := hour * 3600 + minute * 60 + (if leap then 59 else second)
    let instant : Instant := ⟨(⟨y, month, day⟩ : Date).toDays * 86400 + (clock : Int) - east,
      nanos + (if leap then 1000000000 else 0)⟩
    if hasYear instant.date.year then .ok instant else .error .impossible

end Custody.Time
