import WorkloadDrift.Text.Hex

/-!
# SHA-256

Padding to whole blocks, the sixty-four word schedule of a block, and the
compression of the blocks into eight chaining words.
-/
namespace WorkloadDrift.Sha256

structure State where
  (a b c d e f g h : UInt32)
  deriving DecidableEq

def initial : State where
  a := 0x6a09e667
  b := 0xbb67ae85
  c := 0x3c6ef372
  d := 0xa54ff53a
  e := 0x510e527f
  f := 0x9b05688c
  g := 0x1f83d9ab
  h := 0x5be0cd19

def roundConstants : List UInt32 := [
  0x428a2f98, 0x71374491, 0xb5c0fbcf, 0xe9b5dba5, 0x3956c25b, 0x59f111f1, 0x923f82a4, 0xab1c5ed5,
  0xd807aa98, 0x12835b01, 0x243185be, 0x550c7dc3, 0x72be5d74, 0x80deb1fe, 0x9bdc06a7, 0xc19bf174,
  0xe49b69c1, 0xefbe4786, 0x0fc19dc6, 0x240ca1cc, 0x2de92c6f, 0x4a7484aa, 0x5cb0a9dc, 0x76f988da,
  0x983e5152, 0xa831c66d, 0xb00327c8, 0xbf597fc7, 0xc6e00bf3, 0xd5a79147, 0x06ca6351, 0x14292967,
  0x27b70a85, 0x2e1b2138, 0x4d2c6dfc, 0x53380d13, 0x650a7354, 0x766a0abb, 0x81c2c92e, 0x92722c85,
  0xa2bfe8a1, 0xa81a664b, 0xc24b8b70, 0xc76c51a3, 0xd192e819, 0xd6990624, 0xf40e3585, 0x106aa070,
  0x19a4c116, 0x1e376c08, 0x2748774c, 0x34b0bcb5, 0x391c0cb3, 0x4ed8aa4a, 0x5b9cca4f, 0x682e6ff3,
  0x748f82ee, 0x78a5636f, 0x84c87814, 0x8cc70208, 0x90befffa, 0xa4506ceb, 0xbef9a3f7, 0xc67178f2]

def rotateRight (w n : UInt32) : UInt32 := (w >>> n) ||| (w <<< (32 - n))

def choose (e f g : UInt32) : UInt32 := (e &&& f) ^^^ (~~~e &&& g)
def majority (a b c : UInt32) : UInt32 := (a &&& b) ^^^ (a &&& c) ^^^ (b &&& c)

def stateMix (w r₁ r₂ r₃ : UInt32) : UInt32 :=
  rotateRight w r₁ ^^^ rotateRight w r₂ ^^^ rotateRight w r₃

def scheduleMix (w r₁ r₂ shift : UInt32) : UInt32 :=
  rotateRight w r₁ ^^^ rotateRight w r₂ ^^^ (w >>> shift)

/-- Puts the next schedule word before the words so far, which stand latest first. -/
def extend (later : List UInt32) : List UInt32 :=
  (scheduleMix (later.getD 1 0) 17 19 10 + later.getD 6 0 +
    scheduleMix (later.getD 14 0) 7 18 3 + later.getD 15 0) :: later

def schedule (block : List UInt32) : List UInt32 := (Nat.repeat extend 48 block.reverse).reverse

def round (s : State) (word : UInt32 × UInt32) : State :=
  let t := s.h + stateMix s.e 6 11 25 + choose s.e s.f s.g + word.1 + word.2
  { a := t + (stateMix s.a 2 13 22 + majority s.a s.b s.c)
    b := s.a, c := s.b, d := s.c, e := s.d + t, f := s.e, g := s.f, h := s.g }

def compress (s : State) (block : List UInt32) : State :=
  let r := ((schedule block).zip roundConstants).foldl round s
  { a := s.a + r.a, b := s.b + r.b, c := s.c + r.c, d := s.d + r.d
    e := s.e + r.e, f := s.f + r.f, g := s.g + r.g, h := s.h + r.h }

def bigEndian : (width n : Nat) → List UInt8
  | 0, _ => []
  | width + 1, n => bigEndian width (n / 256) ++ [UInt8.ofNat (n % 256)]

/-- The fewest zero bytes that leave room for the mark and the length in a whole block. -/
def zeroCount (size : Nat) : Nat := (119 - size % 64) % 64

def pad (message : List UInt8) : List UInt8 :=
  message ++ 0x80 :: (List.replicate (zeroCount message.length) 0 ++ bigEndian 8 (8 * message.length))

def words : List UInt8 → List UInt32
  | a :: b :: c :: d :: rest =>
    (a.toUInt32 <<< 24 ||| b.toUInt32 <<< 16 ||| c.toUInt32 <<< 8 ||| d.toUInt32) :: words rest
  | _ => []

def blocks : (count : Nat) → List UInt32 → List (List UInt32)
  | 0, _ => []
  | count + 1, ws => ws.take 16 :: blocks count (ws.drop 16)

def digest (message : List UInt8) : State :=
  let ws := words (pad message)
  (blocks (ws.length / 16) ws).foldl compress initial

def State.toHex (s : State) : List Char :=
  [s.a, s.b, s.c, s.d, s.e, s.f, s.g, s.h].flatMap fun w => Hex.digits 8 w.toNat

/-- The digest of the UTF-8 form of a text, as sixty-four lower-case digits. -/
def hexDigest (text : String) : String := String.ofList (digest text.toUTF8.toList).toHex

theorem length_hexDigest (text : String) : (hexDigest text).length = 64 := by
  simp [hexDigest, State.toHex]

end WorkloadDrift.Sha256
