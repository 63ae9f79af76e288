/-!
# Decimal digits

Numerals in the ten ASCII digits.
-/
namespace WorkloadDrift.Decimal

/-- The number written by a run of ASCII digits. -/
def ofDigits (ds : List Char) : Nat := ds.foldl (fun n d => 10 * n + (d.toNat - '0'.toNat)) 0

def digits (n : Nat) : List Char := Nat.toDigits 10 n

/-- The most digits of an integer that is read; leading zeros count. -/
def digitLimit : Nat := 4300

def oversizedMessage (digits : Nat) : String :=
  s!"Exceeds the limit ({digitLimit} digits) for integer string conversion: value has {digits} digits; use sys.set_int_max_str_digits() to increase the limit"

/-- A minus sign before the digits of the absolute value of a negative number. -/
def ofInt : Int → List Char
  | .ofNat n => digits n
  | .negSucc n => '-' :: digits (n + 1)

/-- The digits, with zeros before them up to the given length. -/
def padded (width n : Nat) : List Char :=
  List.replicate (width - (digits n).length) '0' ++ digits n

end WorkloadDrift.Decimal
