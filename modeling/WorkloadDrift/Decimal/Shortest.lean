import WorkloadDrift.Decimal.Digits
import WorkloadDrift.Decimal.Binary64

/-!
# Shortest decimals

The fewest digits that read back as the same number, and the nearest of those.
-/
namespace WorkloadDrift.Decimal

/-- The reals that round to a number, as multiples of a quarter of its last binary place: the
number itself, the ends of the interval, and whether the ends belong to it. -/
structure Interval where
  (low mid high : Nat)
  closed : Bool

/-- Below a power of two the numbers stand twice as close. -/
def interval (mantissa : Nat) (exponent : Int) : Interval where
  low :=
    if mantissa = Nat.pow 2 52 ∧ exponent ≠ Binary64.leastExponent then 4 * mantissa - 1
    else 4 * mantissa - 2
  mid := 4 * mantissa
  high := 4 * mantissa + 2
  closed := mantissa % 2 = 0

def Interval.contains (i : Interval) (num den : Nat) : Bool :=
  if i.closed then i.low * den ≤ num && num ≤ i.high * den
  else i.low * den < num && num < i.high * den

/-- How a point of the grid `10 ^ place` is written in quarters of the last binary place. -/
def gridPoint (c : Nat) (place exponent : Int) : Nat × Nat :=
  let num := c * Nat.pow 10 place.toNat * Nat.pow 2 (2 - exponent).toNat
  let den := Nat.pow 10 (-place).toNat * Nat.pow 2 (exponent - 2).toNat
  (num, den)

/-- The point of the grid `10 ^ place` nearest to the number among its two neighbours that read
back as it. -/
def nearestOn? (mantissa : Nat) (exponent place : Int) : Option Nat :=
  let i := interval mantissa exponent
  let (unitNum, den) := gridPoint 1 place exponent
  let below := i.mid * den / unitNum
  let inside (c : Nat) := i.contains (c * unitNum) den
  let distance (c : Nat) := ((c * unitNum : Nat) - (i.mid * den : Nat) : Int).natAbs
  match inside below, inside (below + 1) with
  | true, true => if distance below ≤ distance (below + 1) then some below else some (below + 1)
  | true, false => some below
  | false, true => some (below + 1)
  | false, false => none

/-- A place whose power of ten is above the number. -/
def topPlace (mantissa : Nat) (exponent : Int) : Int :=
  ((mantissa.log2 + 1 + exponent) * 30103) / 100000 + 1

/-- The first grid that holds a decimal reading back as the number, from coarse to fine. -/
def search (mantissa : Nat) (exponent : Int) : (fuel : Nat) → (place : Int) → Nat × Int
  | 0, place => (0, place)
  | fuel + 1, place =>
    match nearestOn? mantissa exponent place with
    | some (c + 1) => (c + 1, place)
    | _ => search mantissa exponent fuel (place - 1)

/-- Removes the zeros at the end of a decimal. -/
def trimZeros : (fuel c : Nat) → (place : Int) → Nat × Int
  | 0, c, place => (c, place)
  | fuel + 1, c, place => if c % 10 = 0 then trimZeros fuel (c / 10) (place + 1) else (c, place)

/-- Digits `c` and place `p` of the shortest decimal `c * 10 ^ p` of a nonzero number. -/
def shortest (mantissa : Nat) (exponent : Int) : Nat × Int :=
  let (c, place) := search mantissa exponent 24 (topPlace mantissa exponent)
  trimZeros 20 c place

/-- Where the decimal point of a text stands: numbers of at most sixteen integer digits and at
least `0.0001` are positional. -/
def isPositional (point : Int) : Bool := -4 < point && point ≤ 16

def positional (ds : List Char) (point : Int) : List Char :=
  if point ≤ 0 then '0' :: '.' :: (List.replicate (-point).toNat '0' ++ ds)
  else if (ds.length : Int) ≤ point then ds ++ List.replicate (point.toNat - ds.length) '0' ++ ['.', '0']
  else ds.take point.toNat ++ '.' :: ds.drop point.toNat

/-- The exponent has a sign and at least two digits. -/
def scientific (ds : List Char) (point : Int) : List Char :=
  let e := point - 1
  ds.take 1 ++ (if ds.length ≤ 1 then [] else '.' :: ds.drop 1) ++
    'e' :: (if e < 0 then '-' else '+') :: padded 2 e.natAbs

/-- The shortest text of a number that reads back as it; an integral one ends in `.0`. -/
def ofBinary64 : Binary64 → List Char
  | .nan => "NaN".toList
  | .infinite negative => (if negative then "-Infinity" else "Infinity").toList
  | .finite negative m e =>
    let sign := if negative then ['-'] else []
    if m = 0 then sign ++ ['0', '.', '0']
    else
      let (c, place) := shortest m e
      let ds := digits c
      let point := place + ds.length
      sign ++ if isPositional point then positional ds point else scientific ds point

end WorkloadDrift.Decimal
