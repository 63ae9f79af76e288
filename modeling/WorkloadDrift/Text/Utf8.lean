import WorkloadDrift.Text.Hex

/-!
# UTF-8

Decoding with the place of the first fault. A sequence is refused at its first
byte that no valid sequence continues with.
-/
namespace WorkloadDrift.Utf8

inductive Reason where
  | startByte
  | continuationByte
  | unexpectedEnd
  deriving DecidableEq, Repr

def Reason.message : Reason → String
  | .startByte => "invalid start byte"
  | .continuationByte => "invalid continuation byte"
  | .unexpectedEnd => "unexpected end of data"

/-- The bytes of a fault, and where they start. -/
structure Fault where
  reason : Reason
  position : Nat
  bytes : List UInt8
  deriving DecidableEq, Repr

def Fault.message (f : Fault) : String :=
  let place := match f.bytes with
    | [b] => s!"byte 0x{String.ofList (Hex.digits 2 b.toNat)} in position {f.position}"
    | bytes => s!"bytes in position {f.position}-{f.position + bytes.length - 1}"
  s!"'utf-8' codec can't decode {place}: {f.reason.message}"

/-- How many bytes follow a lead byte, and the range of the first of them. -/
def shape? (lead : UInt8) : Option (Nat × UInt8 × UInt8) :=
  if 0xc2 ≤ lead ∧ lead ≤ 0xdf then some (1, 0x80, 0xbf)
  else if lead = 0xe0 then some (2, 0xa0, 0xbf)
  else if lead = 0xed then some (2, 0x80, 0x9f)
  else if 0xe1 ≤ lead ∧ lead ≤ 0xef then some (2, 0x80, 0xbf)
  else if lead = 0xf0 then some (3, 0x90, 0xbf)
  else if lead = 0xf4 then some (3, 0x80, 0x8f)
  else if 0xf1 ≤ lead ∧ lead ≤ 0xf3 then some (3, 0x80, 0xbf)
  else none

/-- The value bits of a lead byte with the given number of followers. -/
def leadBits (followers : Nat) (lead : UInt8) : Nat := lead.toNat % Nat.pow 2 (6 - followers)

/-- Takes `followers` further bytes, the first of them between `low` and `high`. On a fault it gives
the reason and how many bytes were good. -/
def takeFollowers : (followers : Nat) → (low high : UInt8) → (code : Nat) → List UInt8 →
    Except (Reason × Nat) (Nat × List UInt8)
  | 0, _, _, code, bytes => .ok (code, bytes)
  | _ + 1, _, _, _, [] => .error (.unexpectedEnd, 0)
  | followers + 1, low, high, code, b :: bytes =>
    if low ≤ b ∧ b ≤ high then
      match takeFollowers followers 0x80 0xbf (64 * code + b.toNat % 64) bytes with
      | .ok taken => .ok taken
      | .error (reason, good) => .error (reason, good + 1)
    else .error (.continuationByte, 0)

/-- The character that starts a byte sequence, or the reason and length of the fault there. -/
def takeChar (lead : UInt8) (bytes : List UInt8) : Except (Reason × Nat) (Char × List UInt8) :=
  if lead < 0x80 then .ok (Char.ofNat lead.toNat, bytes)
  else
    match shape? lead with
    | none => .error (.startByte, 1)
    | some (followers, low, high) =>
      match takeFollowers followers low high (leadBits followers lead) bytes with
      | .ok (code, rest) => .ok (Char.ofNat code, rest)
      | .error (reason, good) => .error (reason, good + 1)

theorem takeFollowers_length {followers code code' : Nat} {low high : UInt8} {bytes rest : List UInt8}
    (h : takeFollowers followers low high code bytes = .ok (code', rest)) :
    rest.length ≤ bytes.length := by
  induction followers generalizing low high code bytes with
  | zero =>
    simp only [takeFollowers, Except.ok.injEq, Prod.mk.injEq] at h
    exact Nat.le_of_eq (congrArg List.length h.2.symm)
  | succ n ih =>
    cases bytes with
    | nil => simp [takeFollowers] at h
    | cons b bytes =>
      simp only [takeFollowers] at h
      split at h
      · split at h
        · next hr =>
          cases h
          exact Nat.le_succ_of_le (ih hr)
        · cases h
      · cases h

theorem takeChar_length {lead : UInt8} {bytes rest : List UInt8} {c : Char}
    (h : takeChar lead bytes = .ok (c, rest)) : rest.length ≤ bytes.length := by
  unfold takeChar at h
  split at h
  · obtain ⟨-, rfl⟩ := Prod.mk.inj (Except.ok.inj h)
    exact Nat.le_refl _
  · split at h
    · cases h
    · split at h
      · next hf =>
        obtain ⟨-, rfl⟩ := Prod.mk.inj (Except.ok.inj h)
        exact takeFollowers_length hf
      · cases h

/-- The characters of bytes that stand at the given position. -/
def decodeFrom (position : Nat) (bytes : List UInt8) : Except Fault (List Char) :=
  match bytes with
  | [] => .ok []
  | lead :: bytes =>
    match _h : takeChar lead bytes with
    | .error (reason, length) => .error ⟨reason, position, (lead :: bytes).take length⟩
    | .ok (c, rest) =>
      (decodeFrom (position + (bytes.length + 1 - rest.length)) rest).map (c :: ·)
termination_by bytes.length
decreasing_by
  have := takeChar_length ‹_›
  simp only [List.length_cons]
  omega

def decode (bytes : List UInt8) : Except Fault (List Char) := decodeFrom 0 bytes

end WorkloadDrift.Utf8
