/-!
# Double-precision numbers

The values of the 64-bit binary format, and the one nearest to a decimal.
-/
namespace WorkloadDrift

/-- A finite number is `mantissa * 2 ^ exponent` with a mantissa below `2 ^ 53`. The mantissa is at
least `2 ^ 52` unless the exponent is the least one, so that each number has one form. -/
inductive Binary64 where
  | nan
  | infinite (negative : Bool)
  | finite (negative : Bool) (mantissa : Nat) (exponent : Int)
  deriving DecidableEq, Repr, Inhabited

namespace Binary64

def leastExponent : Int := -1074
def greatestExponent : Int := 971

def zero (negative : Bool) : Binary64 := .finite negative 0 leastExponent

def isFinite : Binary64 → Bool
  | .finite .. => true
  | _ => false

def isZero : Binary64 → Bool
  | .finite _ m _ => m = 0
  | _ => false

/-- The quotient rounded to the nearest integer, a half to the even one. -/
def roundDiv (num den : Nat) : Nat :=
  let q := num / den
  let r := num % den
  if 2 * r < den ∨ (2 * r = den ∧ q % 2 = 0) then q else q + 1

/-- Numerator and denominator of `num / den` divided by `2 ^ e`. -/
def scale (num den : Nat) (e : Int) : Nat × Nat :=
  if 0 ≤ e then (num, den * Nat.pow 2 e.toNat) else (num * Nat.pow 2 (-e).toNat, den)

/-- The number nearest to `num / den`, or an infinity beyond the range. -/
def ofRatio (negative : Bool) (num den : Nat) : Binary64 :=
  if num = 0 then zero negative
  else
    let estimate : Int := (num.log2 : Int) - den.log2 - 52
    let (n, d) := scale num den estimate
    let normal := if Nat.pow 2 52 ≤ n / d then estimate else estimate - 1
    let exponent := max normal leastExponent
    let (n, d) := scale num den exponent
    let m := roundDiv n d
    let (m, exponent) := if m = Nat.pow 2 53 then (Nat.pow 2 52, exponent + 1) else (m, exponent)
    if greatestExponent < exponent then .infinite negative else .finite negative m exponent

/-- The number nearest to `digits * 10 ^ exponent`, where `digits` has `count` decimal digits.
Exponents far outside the range are settled by the count, before any power is formed. -/
def ofDecimal (negative : Bool) (digits count : Nat) (exponent : Int) : Binary64 :=
  if digits = 0 ∨ exponent + count < -330 then zero negative
  else if 310 + count < exponent + count then .infinite negative
  else if 0 ≤ exponent then ofRatio negative (digits * Nat.pow 10 exponent.toNat) 1
  else ofRatio negative digits (Nat.pow 10 (-exponent).toNat)

end Binary64
end WorkloadDrift
