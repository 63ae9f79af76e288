import WorkloadDrift.Decimal.Digits
import WorkloadDrift.Text.Blank
import WorkloadDrift.Text.Digit
import WorkloadDrift.Text.Quoted

/-!
# Integers written as text

Digits of any script with single underscores between them, an optional sign
before them, and spacing around.
-/
namespace WorkloadDrift.Text

inductive IntegerFault where
  | malformed (text : List Char)
  | oversized (digits : Nat)
  deriving DecidableEq, Repr

/-- A malformed text is shown quoted and cut to two hundred characters. -/
def IntegerFault.message : IntegerFault → String
  | .malformed text =>
    "invalid literal for int() with base 10: " ++ String.ofList ((quoted text).take 200)
  | .oversized digits => Decimal.oversizedMessage digits

def signOf : List Char → Bool × List Char
  | '-' :: cs => (true, cs)
  | '+' :: cs => (false, cs)
  | cs => (false, cs)

/-- Whether each underscore stands between two digits. -/
def underscoresSeparate : List Char → Bool
  | [] => true
  | ['_'] => false
  | '_' :: '_' :: _ => false
  | _ :: cs => underscoresSeparate cs

def valueOf (digits : List Nat) : Nat := digits.foldl (fun n d => 10 * n + d) 0

/-- Too many digits are reported even if something unreadable follows them. -/
def readInteger (text : List Char) : Except IntegerFault Int :=
  let (negative, body) := signOf (text.dropWhile isSpacing)
  let numeral := body.takeWhile fun c => isDecimalDigit c || c = '_'
  let rest := body.drop numeral.length
  let digits := numeral.filterMap digitValue?
  if numeral.head? = some '_' || !underscoresSeparate numeral then .error (.malformed text)
  else if Decimal.digitLimit < digits.length then .error (.oversized digits.length)
  else if digits.isEmpty || !(rest.all isSpacing) then .error (.malformed text)
  else
    let n : Int := valueOf digits
    .ok (if negative then -n else n)

end WorkloadDrift.Text
