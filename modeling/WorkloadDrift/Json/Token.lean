import WorkloadDrift.Text.Hex
import WorkloadDrift.Decimal.Digits
import WorkloadDrift.Json.Basic

/-!
# JSON tokens

A text is cut into tokens, each placed at the part of the text that it begins.
What begins no token is an invalid one, and the text after it is not read.
-/
namespace WorkloadDrift.Json

/-- Why a text is not JSON. -/
inductive Fault where
  | value
  | propertyName
  | colon
  | comma
  | unterminatedText
  | controlCharacter
  | badEscape
  | badUnicodeEscape
  | extraData
  | byteOrderMark
  deriving DecidableEq, Repr

/-- A fault and the part of the text from it on. -/
structure Misplaced where
  fault : Fault
  place : List Char

/-- A well-formed token that cannot be read at all is `oversized`: an integer of more digits than
`Decimal.digitLimit`. -/
inductive Token where
  | openBrace | closeBrace | openBracket | closeBracket | colon | comma
  | scalar (value : Json)
  | text (value : String)
  | oversized (digits : Nat)
  | invalid (reason : Misplaced)

structure Placed where
  token : Token
  place : List Char

def isSpace (c : Char) : Bool := c = ' ' || c = '\t' || c = '\n' || c = '\r'

/-- The character that a letter after a backslash stands for. -/
def shortEscape? : Char → Option Char
  | '"' => some '"'
  | '\\' => some '\\'
  | '/' => some '/'
  | 'b' => some '\x08'
  | 'f' => some '\x0c'
  | 'n' => some '\n'
  | 'r' => some '\r'
  | 't' => some '\t'
  | _ => none

def isHighSurrogate (n : Nat) : Bool := 0xd800 ≤ n && n < 0xdc00
def isLowSurrogate (n : Nat) : Bool := 0xdc00 ≤ n && n < 0xe000

/-- The character of a code point; a surrogate without its partner is replaced. -/
def ofCodePoint (n : Nat) : Char :=
  if isHighSurrogate n || isLowSurrogate n then '\uFFFD' else Char.ofNat n

def joinSurrogates (high low : Nat) : Nat := 0x10000 + (high - 0xd800) * 0x400 + (low - 0xdc00)

/-- The number of a four-digit escape, given the text after its `u`, and the text after it. An
escape that ends the text is refused, as the text has to be closed behind it. -/
def takeUnit (cs : List Char) : Except Misplaced (Nat × List Char) :=
  match Hex.number? (cs.take 4), cs.drop 4 with
  | some n, c :: rest => .ok (n, c :: rest)
  | _, _ => .error ⟨.badUnicodeEscape, 'u' :: cs⟩

/-- The character of a four-digit escape or of two that form a surrogate pair. -/
def takeEscape (cs : List Char) : Except Misplaced (Char × List Char) := do
  let (high, rest) ← takeUnit cs
  match rest with
  | '\\' :: 'u' :: cs' =>
    if isHighSurrogate high && 5 ≤ cs'.length then
      let (low, rest') ← takeUnit cs'
      if isLowSurrogate low then return (Char.ofNat (joinSurrogates high low), rest')
    return (ofCodePoint high, rest)
  | _ => return (ofCodePoint high, rest)

/-- One character of a quoted text, written plainly or as an escape. -/
def takeChar (opening : List Char) : List Char → Except Misplaced (Char × List Char)
  | [] => .error ⟨.unterminatedText, opening⟩
  | '\\' :: [] => .error ⟨.unterminatedText, opening⟩
  | '\\' :: 'u' :: rest => takeEscape rest
  | '\\' :: c :: rest =>
    match shortEscape? c with
    | some d => .ok (d, rest)
    | none => .error ⟨.badEscape, '\\' :: c :: rest⟩
  | c :: rest => if c.toNat < 0x20 then .error ⟨.controlCharacter, c :: rest⟩ else .ok (c, rest)

theorem takeUnit_length {cs rest : List Char} {n : Nat} (h : takeUnit cs = .ok (n, rest)) :
    rest.length ≤ cs.length := by
  unfold takeUnit at h
  split at h
  · next c rest' _ hd =>
    obtain ⟨rfl, rfl⟩ := Prod.mk.inj (Except.ok.inj h)
    rw [← hd, List.length_drop]
    omega
  · cases h

theorem takeEscape_length {cs rest : List Char} {c : Char} (h : takeEscape cs = .ok (c, rest)) :
    rest.length ≤ cs.length := by
  unfold takeEscape at h
  cases hu : takeUnit cs with
  | error e => simp [hu, bind, Except.bind] at h
  | ok p =>
    obtain ⟨high, after⟩ := p
    have hle := takeUnit_length hu
    simp only [hu, bind, Except.bind] at h
    split at h
    · next cs' =>
      split at h
      · cases hu' : takeUnit cs' with
        | error e => simp [hu'] at h
        | ok p =>
          obtain ⟨low, after'⟩ := p
          have hle' := takeUnit_length hu'
          simp only [hu'] at h
          split at h
          · simp only [pure, Except.pure, Except.ok.injEq, Prod.mk.injEq] at h
            obtain ⟨-, rfl⟩ := h
            simp only [List.length_cons] at hle
            omega
          · simp only [pure, Except.pure, Except.ok.injEq, Prod.mk.injEq] at h
            obtain ⟨-, rfl⟩ := h
            exact hle
      · simp only [pure, Except.pure, Except.ok.injEq, Prod.mk.injEq] at h
        obtain ⟨-, rfl⟩ := h
        exact hle
    · simp only [pure, Except.pure, Except.ok.injEq, Prod.mk.injEq] at h
      obtain ⟨-, rfl⟩ := h
      exact hle

theorem takeChar_length {opening cs rest : List Char} {c : Char}
    (h : takeChar opening cs = .ok (c, rest)) : rest.length < cs.length := by
  unfold takeChar at h
  split at h
  · cases h
  · cases h
  · have := takeEscape_length h
    simp only [List.length_cons]
    omega
  · split at h
    · obtain ⟨-, rfl⟩ := Prod.mk.inj (Except.ok.inj h)
      simp only [List.length_cons]
      omega
    · cases h
  · split at h
    · cases h
    · obtain ⟨-, rfl⟩ := Prod.mk.inj (Except.ok.inj h)
      simp

/-- The text up to its closing quote, and what follows the quote. -/
def takeText (opening cs : List Char) : Except Misplaced (List Char × List Char) :=
  match cs with
  | '"' :: rest => .ok ([], rest)
  | cs =>
    match _h : takeChar opening cs with
    | .error e => .error e
    | .ok (c, rest) => (takeText opening rest).map fun (text, after) => (c :: text, after)
termination_by cs.length
decreasing_by exact takeChar_length ‹_›

/-- A fraction needs a digit after its point. -/
def takeFraction : List Char → Option (List Char × List Char)
  | '.' :: cs => if (cs.takeWhile Char.isDigit).isEmpty then none else some (cs.span Char.isDigit)
  | _ => none

def takeSign : List Char → Bool × List Char
  | '-' :: cs => (true, cs)
  | '+' :: cs => (false, cs)
  | cs => (false, cs)

/-- An exponent needs a digit after its letter and sign. -/
def takeExponent : List Char → Option (Int × List Char)
  | c :: cs =>
    if c = 'e' ∨ c = 'E' then
      let (negative, cs) := takeSign cs
      let (ds, rest) := cs.span Char.isDigit
      let n : Int := Decimal.ofDigits ds
      if ds.isEmpty then none else some (if negative then -n else n, rest)
    else none
  | [] => none

/-- The digits before the point: a zero alone, or a run that does not start with one. -/
def takeWhole : List Char → Option (List Char × List Char)
  | '0' :: cs => some (['0'], cs)
  | cs => if (cs.takeWhile Char.isDigit).isEmpty then none else some (cs.span Char.isDigit)

def integer (negative : Bool) (ds : List Char) : Token :=
  if Decimal.digitLimit < ds.length then .oversized ds.length
  else
    let n : Int := Decimal.ofDigits ds
    .scalar (.int (if negative then -n else n))

def takeNumber (cs : List Char) : Option (Token × List Char) :=
  let (negative, unsigned) := match cs with
    | '-' :: cs => (true, cs)
    | cs => (false, cs)
  match takeWhole unsigned with
  | none => none
  | some (whole, rest) =>
    let fraction := takeFraction rest
    let (ds, rest) := fraction.getD ([], rest)
    let exponent := takeExponent rest
    let (e, rest) := exponent.getD (0, rest)
    if fraction.isNone && exponent.isNone then some (integer negative whole, rest)
    else
      let all := whole ++ ds
      some (.scalar (.float (.ofDecimal negative (Decimal.ofDigits all) all.length (e - ds.length))), rest)

/-- The words that are values. -/
def literals : List (List Char × Json) := [
  ("null".toList, .null), ("true".toList, .bool true), ("false".toList, .bool false),
  ("NaN".toList, .float .nan), ("Infinity".toList, .float (.infinite false)),
  ("-Infinity".toList, .float (.infinite true))]

def takeLiteral (cs : List Char) : Option (Token × List Char) :=
  (literals.find? fun (word, _) => word.isPrefixOf cs).map fun (word, value) =>
    (.scalar value, cs.drop word.length)

/-- The token that a text begins with. -/
def takeToken : List Char → Token × List Char
  | [] => (.invalid ⟨.value, []⟩, [])
  | '{' :: cs => (.openBrace, cs)
  | '}' :: cs => (.closeBrace, cs)
  | '[' :: cs => (.openBracket, cs)
  | ']' :: cs => (.closeBracket, cs)
  | ':' :: cs => (.colon, cs)
  | ',' :: cs => (.comma, cs)
  | '"' :: cs =>
    match takeText ('"' :: cs) cs with
    | .ok (text, rest) => (.text (String.ofList text), rest)
    | .error reason => (.invalid reason, [])
  | cs => ((takeLiteral cs).orElse fun _ => takeNumber cs).getD (.invalid ⟨.value, cs⟩, [])

/-- The tokens of a text, none of them after an invalid one. -/
def tokens (cs : List Char) : List Placed :=
  match cs.dropWhile isSpace with
  | [] => []
  | c :: rest =>
    let (token, after) := takeToken (c :: rest)
    ⟨token, c :: rest⟩ :: if after.length < cs.length then tokens after else []
termination_by cs.length

end WorkloadDrift.Json
