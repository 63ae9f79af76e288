import WorkloadDrift.Text.Blank
import WorkloadDrift.Text.Digit
import WorkloadDrift.Text.Word
import WorkloadDrift.Regex.Expr

/-!
# Matching regular expressions

Backtracking with continuations: an expression is matched at a place and hands
each of its ends, in order of preference, to what follows it.
-/
namespace WorkloadDrift.Regex

/-- A place in a text, the characters before it latest first, and the text of each group matched so
far. -/
structure Cursor where
  before : List Char
  after : List Char
  place : Nat
  captures : List (Nat × List Char)

/-- What remains to be matched; it gives the end of the whole match. -/
abbrev Rest := Cursor → Option Cursor

namespace CharKind

def holdsAscii (k : CharKind) (c : Char) : Bool :=
  match k with
  | digit => c.isDigit
  | blank => c = ' ' || (0x09 ≤ c.toNat && c.toNat ≤ 0x0d)
  | word => c.isAlphanum || c = '_'

def holds (k : CharKind) (ascii : Bool) (c : Char) : Bool :=
  if ascii then k.holdsAscii c
  else
    match k with
    | digit => Text.isDecimalDigit c
    | blank => Text.isBlank c
    | word => Text.isWord c

end CharKind

/-- Case is folded for the ASCII letters. -/
def foldCode (code : Nat) : Nat := if 0x41 ≤ code ∧ code ≤ 0x5a then code + 0x20 else code

def Member.holds (c : Char) : Member → Bool
  | .one code => c.toNat = code
  | .range low high => low ≤ c.toNat && c.toNat ≤ high
  | .kind k negated ascii => k.holds ascii c != negated

/-- A folded character is in a set if it is in it in lower or in upper case. -/
def Member.holdsFolded (c : Char) : Member → Bool
  | .one code => foldCode c.toNat = foldCode code
  | .range low high =>
    (Member.range low high).holds c.toLower || (Member.range low high).holds c.toUpper
  | .kind k negated ascii => k.holds ascii c.toLower != negated

def setHolds (negated foldCase : Bool) (members : List Member) (c : Char) : Bool :=
  members.any (if foldCase then Member.holdsFolded c else Member.holds c) != negated

namespace Cursor

def next (s : Cursor) (p : Char → Bool) (k : Rest) : Option Cursor :=
  match s.after with
  | c :: after =>
    if p c then k { s with before := c :: s.before, after, place := s.place + 1 } else none
  | [] => none

/-- The place a number of characters earlier. -/
def back (s : Cursor) : Nat → Option Cursor
  | 0 => some s
  | n + 1 =>
    match s.before with
    | c :: before => back { s with before, after := c :: s.after, place := s.place - 1 } n
    | [] => none

def wordAt (ascii : Bool) (side : List Char) : Bool :=
  (side.head?.map (CharKind.word.holds ascii)).getD false

def satisfies (s : Cursor) : Anchor → Bool
  | .textStart => s.before.isEmpty
  | .lineStart => s.before.isEmpty || s.before.head? = some '\n'
  | .textEnd => s.after.isEmpty
  | .lineEnd => s.after.isEmpty || s.after.head? = some '\n'
  | .finalEnd => s.after.isEmpty || s.after = ['\n']
  | .wordEdge negated ascii =>
    !(s.before.isEmpty && s.after.isEmpty) &&
      (wordAt ascii s.before != wordAt ascii s.after) != negated

def capture (index : Nat) (start s : Cursor) : Cursor :=
  { s with captures := (index, (s.before.take (s.place - start.place)).reverse) ::
      s.captures.filter (·.1 ≠ index) }

/-- Goes over a given text. -/
def passing (foldCase : Bool) : List Char → Cursor → Option Cursor
  | [], s => some s
  | c :: cs, s =>
    let same (d : Char) : Bool := if foldCase then foldCode d.toNat = foldCode c.toNat else d = c
    s.next same (passing foldCase cs)

end Cursor

def reached (max : Option Nat) (count : Nat) : Bool :=
  match max with
  | some most => most ≤ count
  | none => false

/-- Rounds of a greedy repetition. After the required rounds, one that starts where the one before
it started ends the repetition. -/
def greedyRounds (round : Cursor → Rest → Option Cursor) (min : Nat) (max : Option Nat) :
    (fuel count : Nat) → (last : Option Nat) → Cursor → Rest → Option Cursor
  | 0, _, _, s, k => k s
  | fuel + 1, count, last, s, k =>
    if count < min then round s fun t => greedyRounds round min max fuel (count + 1) last t k
    else if reached max count || last = some s.place then k s
    else
      (round s fun t => greedyRounds round min max fuel (count + 1) (some s.place) t k).orElse
        fun _ => k s

def lazyRounds (round : Cursor → Rest → Option Cursor) (min : Nat) (max : Option Nat) :
    (fuel count : Nat) → (last : Option Nat) → Cursor → Rest → Option Cursor
  | 0, _, _, s, k => k s
  | fuel + 1, count, last, s, k =>
    if count < min then round s fun t => lazyRounds round min max fuel (count + 1) last t k
    else
      (k s).orElse fun _ =>
        if reached max count || last = some s.place then none
        else round s fun t => lazyRounds round min max fuel (count + 1) (some s.place) t k

def possessiveRounds (round : Cursor → Rest → Option Cursor) (min : Nat) (max : Option Nat) :
    (fuel count : Nat) → (last : Option Nat) → Cursor → Option Cursor
  | 0, _, _, s => some s
  | fuel + 1, count, last, s =>
    if count < min then
      (round s some).bind (possessiveRounds round min max fuel (count + 1) last)
    else if reached max count || last = some s.place then some s
    else
      match round s some with
      | some t => possessiveRounds round min max fuel (count + 1) (some s.place) t
      | none => some s

/-- Enough rounds: each one beyond the required ones but the last consumes a character. -/
def roundLimit (min : Nat) (s : Cursor) : Nat := min + s.after.length + 2

def Expr.run : Expr → Cursor → Rest → Option Cursor
  | .empty, s, k => k s
  | .fail, _, _ => none
  | .one code foldCase, s, k =>
    s.next (fun c => if foldCase then foldCode c.toNat = foldCode code else c.toNat = code) k
  | .any newlines, s, k => s.next (fun c => newlines || c ≠ '\n') k
  | .set negated foldCase members, s, k => s.next (setHolds negated foldCase members) k
  | .anchor a, s, k => if s.satisfies a then k s else none
  | .seq a b, s, k => run a s fun t => run b t k
  | .alt a b, s, k => (run a s k).orElse fun _ => run b s k
  | .repeated .greedy min max body, s, k =>
    greedyRounds (run body) min max (roundLimit min s) 0 none s k
  | .repeated .lazy min max body, s, k =>
    lazyRounds (run body) min max (roundLimit min s) 0 none s k
  | .repeated .possessive min max body, s, k =>
    (possessiveRounds (run body) min max (roundLimit min s) 0 none s).bind k
  | .group none body, s, k => run body s k
  | .group (some index) body, s, k => run body s fun t => k (Cursor.capture index s t)
  | .atomic body, s, k => (run body s some).bind k
  | .sameAs index foldCase, s, k =>
    (s.captures.lookup index).bind fun text => (s.passing foldCase text).bind k
  | .ahead negated body, s, k =>
    match run body s some, negated with
    | some t, false => k { s with captures := t.captures }
    | none, true => k s
    | _, _ => none
  | .behind negated width body, s, k =>
    match (s.back width).bind fun t => run body t some, negated with
    | some t, false => k { s with captures := t.captures }
    | none, true => k s
    | _, _ => none
  | .ifGroup index yes no, s, k =>
    if (s.captures.lookup index).isSome then run yes s k else run no s k

def Expr.foundFrom (e : Expr) (before : List Char) (place : Nat) (after : List Char) : Bool :=
  (e.run ⟨before, after, place, []⟩ some).isSome ||
    match after with
    | [] => false
    | c :: after => e.foundFrom (c :: before) (place + 1) after

/-- Whether some part of a text matches. -/
def Expr.foundIn (e : Expr) (text : List Char) : Bool := e.foundFrom [] 0 text

end WorkloadDrift.Regex
