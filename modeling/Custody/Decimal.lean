/-!
Numbers in decimal. Integers print in one form; reading also takes a plus sign and leading zeros,
but only what fits a signed 64-bit word. A double prints as the fewest digits that still read back
as it: it is `m · 2 ^ q`, the reals that round to it form an interval, and the first decimal grid
with a point inside wins. All tests on doubles are exact comparisons of naturals.
-/
namespace Custody.Decimal

/-! ### Integers -/

def printInt (n : Int) : List Char :=
  if n < 0 then '-' :: Nat.toDigits 10 n.natAbs else Nat.toDigits 10 n.natAbs

def digitsValue (ds : List Char) : Nat := ds.foldl (fun n c => n * 10 + (c.toNat - '0'.toNat)) 0

def readNat? (ds : List Char) : Option Nat :=
  if ds ≠ [] ∧ ds.all Char.isDigit then some (digitsValue ds) else none

def fitsInt64 (n : Int) : Bool := -0x8000000000000000 ≤ n && n < 0x8000000000000000

def readInt64? (cs : List Char) : Option Int :=
  let value := match cs with
    | '-' :: ds => (readNat? ds).map fun n => -(n : Int)
    | '+' :: ds => (readNat? ds).map fun n => (n : Int)
    | ds => (readNat? ds).map fun n => (n : Int)
  value.filter fitsInt64

example : readInt64? "-9223372036854775808".toList = some (-9223372036854775808) ∧
    readInt64? "9223372036854775808".toList = none ∧ readInt64? "+022".toList = some 22 ∧
    readInt64? ['-'] = none := by decide +kernel

/-! ### Doubles -/

structure Scaled where
  digits : Nat
  exponent : Int
deriving DecidableEq, Repr

structure Binary where
  mantissa : Nat
  exponent : Int
deriving DecidableEq, Repr

/-- Compares `c · 10 ^ p` with `b` after clearing both denominators. -/
def compareScaled (c : Nat) (p : Int) (b : Binary) : Ordering :=
  compare ((c * Nat.pow 10 p.toNat) <<< (-b.exponent).toNat)
    ((b.mantissa <<< b.exponent.toNat) * Nat.pow 10 (-p).toNat)

def Binary.floorAt (b : Binary) (p : Int) : Nat :=
  (b.mantissa <<< b.exponent.toNat) * Nat.pow 10 (-p).toNat /
    (Nat.pow 10 p.toNat <<< (-b.exponent).toNat)

def digitCount (n : Nat) : Nat := (Nat.toDigits 10 n).length

/-- The exponent of the first digit: `10 ^ lead ≤ b < 10 ^ (lead + 1)`. The grid 400 places below
the point is finer than every double. -/
def Binary.lead (b : Binary) : Int := (digitCount (b.floorAt (-400)) : Int) - 401

/-- Four times the value and its distances to the ends of the interval. The lower neighbour of a
power of two is only half as far away; the ends round to an even mantissa. -/
structure Interval where
  low : Binary
  high : Binary
  closed : Bool

def Binary.interval (b : Binary) (lowerGapHalved : Bool) : Interval where
  low := ⟨4 * b.mantissa - (if lowerGapHalved then 1 else 2), b.exponent - 2⟩
  high := ⟨4 * b.mantissa + 2, b.exponent - 2⟩
  closed := b.mantissa % 2 == 0

def Interval.holds (i : Interval) (c : Nat) (p : Int) : Bool :=
  let above := compareScaled c p i.low
  let below := compareScaled c p i.high
  (above == .gt || (i.closed && above == .eq)) && (below == .lt || (i.closed && below == .eq))

/-- The point of the grid `10 ^ p` to choose, if one of the value's two neighbours is inside;
of two the nearer, and the even one of an exact tie. -/
def pick (b : Binary) (i : Interval) (p : Int) : Option Nat :=
  let c := b.floorAt p
  match i.holds c p, i.holds (c + 1) p with
  | false, false => none
  | true, false => some c
  | false, true => some (c + 1)
  | true, true =>
    match compareScaled (2 * c + 1) p ⟨2 * b.mantissa, b.exponent⟩ with
    | .gt => some c
    | .lt => some (c + 1)
    | .eq => some (if c % 2 == 0 then c else c + 1)

def dropZeros (digits : Nat) (exponent : Int) : Nat → Scaled
  | 0 => ⟨digits, exponent⟩
  | n + 1 =>
    if digits % 10 == 0 && digits != 0 then dropZeros (digits / 10) (exponent + 1) n
    else ⟨digits, exponent⟩

/-- Grids of one digit, two digits, and so on; 17 digits tell all doubles apart. -/
def shortest (b : Binary) (lowerGapHalved : Bool) : Scaled :=
  let i := b.interval lowerGapHalved
  let grids := (List.range 17).map fun (n : Nat) => b.lead - (n : Int)
  match grids.findSome? fun p => (pick b i p).map (·, p) with
  | some (c, p) => dropZeros c p 20
  | none => ⟨0, 0⟩

/-- The sign and magnitude of a finite double, and whether it is a power of two above the
smallest exponent. -/
def ofBits (bits : UInt64) : Bool × Binary × Bool :=
  let n := bits.toNat
  let fraction : Nat := n % 0x10000000000000
  let biased : Nat := (n >>> 52) % 0x800
  let negative := n >>> 63 == 1
  if biased == 0 then (negative, ⟨fraction, -1074⟩, false)
  else
    let mantissa := fraction + 0x10000000000000
    (negative, ⟨mantissa, (biased : Int) - 1075⟩, fraction == 0 && biased != 1)

end Custody.Decimal
