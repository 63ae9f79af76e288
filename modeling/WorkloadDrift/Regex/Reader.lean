import WorkloadDrift.Text.Integer
import WorkloadDrift.Text.Word
import WorkloadDrift.Regex.Expr
import WorkloadDrift.Regex.Fault

/-!
# Reading regular expressions

A pattern is read from left to right. The open groups are kept on a stack, each
with its finished branches and the parts of its current one.
-/
namespace WorkloadDrift.Regex

/-- A character, or a backslash with the character after it. -/
structure Token where
  place : Nat
  text : List Char

def tokensFrom (place : Nat) : List Char → List Token
  | '\\' :: c :: cs => ⟨place, ['\\', c]⟩ :: tokensFrom (place + 2) cs
  | c :: cs => ⟨place, [c]⟩ :: tokensFrom (place + 1) cs
  | [] => []

structure Flags where
  ignoreCase : Bool := false
  multiline : Bool := false
  dotAll : Bool := false
  verbose : Bool := false
  ascii : Bool := false
  unicode : Bool := false

/-- What a parenthesis opened; the outermost frame is the pattern itself. -/
inductive Opening where
  | pattern
  | plain
  | capture (index : Nat)
  | atomic
  | ahead (negated : Bool)
  | behind (negated : Bool) (outerLimit : Option Nat)
  | conditional (index : Nat)

structure Frame where
  opening : Opening
  place : Nat
  flags : Flags
  branches : List Expr := []
  parts : List Expr := []

def Frame.branch (f : Frame) : Expr := .ofSequence f.parts.reverse

def Frame.body (f : Frame) : Expr := .ofBranches (f.branch :: f.branches).reverse

def Frame.append (f : Frame) (e : Expr) : Frame := { f with parts := e :: f.parts }

/-- Groups are numbered from one as they open; `closed` has the widths of those that are complete.
Inside a lookbehind, references are limited to groups opened before it. -/
structure Progress where
  size : Nat
  rest : List Token
  frame : Frame
  outer : List Frame
  opened : Nat := 0
  closed : List (Nat × Width) := []
  names : List (List Char × Nat) := []
  behindLimit : Option Nat := none
  conditions : List (Nat × Nat) := []
  unevenBehind : Bool := false

abbrev Reading (α : Type) := Except Fault α

/-! ## The source -/

/-- The place of the next token. -/
def tell (size : Nat) : List Token → Nat
  | [] => size
  | t :: _ => t.place

/-- The tokens after a taken one. A backslash that ends the pattern is refused as soon as it is the
next token. -/
def advance (size : Nat) (rest : List Token) : Reading (List Token) :=
  if (rest.head?.map (·.text)) = some ['\\'] then .error (.at .danglingEscape (size - 1))
  else .ok rest

def nextIs (c : Char) (rest : List Token) : Bool := (rest.head?.map (·.text)) = some [c]

/-- Takes a character if it is next. -/
def accept (size : Nat) (c : Char) (rest : List Token) : Reading (Bool × List Token) :=
  if nextIs c rest then do return (true, ← advance size rest.tail) else .ok (false, rest)

/-- At most `limit` single characters of a class. -/
def takeRun (size : Nat) (p : Char → Bool) : (limit : Nat) → List Token →
    Reading (List Char × List Token)
  | 0, rest => .ok ([], rest)
  | limit + 1, t :: rest =>
    match t.text with
    | [c] =>
      if p c then do
        let (cs, rest) ← takeRun size p limit (← advance size rest)
        return (c :: cs, rest)
      else .ok ([], t :: rest)
    | _ => .ok ([], t :: rest)
  | _ + 1, [] => .ok ([], [])

/-- The characters before a terminator, which is taken too; `what` names them in faults. -/
def takeUntil (size : Nat) (terminator : Char) (what : String) (taken : List Char) :
    List Token → Reading (List Char × List Token)
  | [] =>
    .error <| if taken.isEmpty then .at (.missingName what) size
      else .at (.unterminatedName terminator) (size - taken.length)
  | t :: rest => do
    let rest' ← advance size rest
    if t.text = [terminator] then
      if taken.isEmpty then .error (.at (.missingName what) (tell size rest' - 1))
      else return (taken, rest')
    else takeUntil size terminator what (taken ++ t.text) rest

def isHexDigit (c : Char) : Bool := (Hex.value? c).isSome
def isOctalDigit (c : Char) : Bool := '0' ≤ c && c ≤ '7'

def octalValue (cs : List Char) : Nat := cs.foldl (fun n c => 8 * n + (c.toNat - '0'.toNat)) 0

/-! ## Escapes -/

def controlEscape? : Char → Option Nat
  | 'a' => some 0x07
  | 'f' => some 0x0c
  | 'n' => some 0x0a
  | 'r' => some 0x0d
  | 't' => some 0x09
  | 'v' => some 0x0b
  | '\\' => some 0x5c
  | _ => none

/-- The set that a class escape stands for, and whether it is the complement. -/
def kindEscape? : Char → Option (CharKind × Bool)
  | 'd' => some (.digit, false)
  | 'D' => some (.digit, true)
  | 's' => some (.blank, false)
  | 'S' => some (.blank, true)
  | 'w' => some (.word, false)
  | 'W' => some (.word, true)
  | _ => none

/-- An escape with a fixed number of hexadecimal digits. -/
def hexEscape (size place count : Nat) (c : Char) (rest : List Token) : Reading (Nat × List Token) := do
  let (ds, rest) ← takeRun size isHexDigit count rest
  let text := '\\' :: c :: ds
  if ds.length ≠ count then .error (.at (.incompleteEscape text) place)
  let n := (Hex.number? ds).getD 0
  if 0x10ffff < n then .error (.at (.badEscape text) place)
  return (n, rest)

/-- An escape for a character by its name; no names are known. -/
def namedEscape (size : Nat) (rest : List Token) : Reading (Nat × List Token) := do
  let (brace, rest) ← accept size '\x7b' rest
  if !brace then .error (.at .missingBrace (tell size rest))
  let (name, rest) ← takeUntil size '\x7d' "character name" [] rest
  .error (.at (.undefinedCharacter name) (tell size rest - (name.length + 4)))

/-- The character of an escape that stands for one, after those with a meaning of their own. -/
def characterEscape (size place : Nat) (c : Char) (rest : List Token) : Reading (Nat × List Token) :=
  match c with
  | 'x' => hexEscape size place 2 c rest
  | 'u' => hexEscape size place 4 c rest
  | 'U' => hexEscape size place 8 c rest
  | 'N' => namedEscape size rest
  | c =>
    if c.isAlpha || c.isDigit then .error (.at (.badEscape ['\\', c]) place)
    else .ok (c.toNat, rest)

def setEscape (size : Nat) (ascii : Bool) (place : Nat) (c : Char) (rest : List Token) :
    Reading (Member × List Token) :=
  match controlEscape? c, kindEscape? c with
  | some n, _ => .ok (.one n, rest)
  | _, some (k, negated) => .ok (.kind k negated ascii, rest)
  | none, none =>
    if c = 'b' then .ok (.one 0x08, rest)
    else if isOctalDigit c then do
      let (ds, rest) ← takeRun size isOctalDigit 2 rest
      let n := octalValue (c :: ds)
      if 0o377 < n then .error (.at (.octalTooLarge ('\\' :: c :: ds)) place)
      return (.one n, rest)
    else do
      let (n, rest) ← characterEscape size place c rest
      return (.one n, rest)

def anchorEscape? (ascii : Bool) : Char → Option Anchor
  | 'A' => some .textStart
  | 'Z' => some .textEnd
  | 'b' => some (.wordEdge false ascii)
  | 'B' => some (.wordEdge true ascii)
  | _ => none

namespace Progress

/-- A reference to a group is possible once the group is closed. -/
def checkReference (p : Progress) (index openPlace behindPlace : Nat) : Reading Unit :=
  let isClosed := (p.closed.lookup index).isSome
  match p.behindLimit with
  | none => if isClosed then .ok () else .error (.at .openReference openPlace)
  | some limit =>
    if !isClosed then .error (.at .openReference openPlace)
    else if limit < index then .error (.at .behindReference behindPlace)
    else .ok ()

/-- A reference by number; three octal digits are a character instead. -/
def numberEscape (p : Progress) (place : Nat) (c : Char) (rest : List Token) :
    Reading (Expr × List Token) := do
  let flags := p.frame.flags
  let (second, rest) ← takeRun p.size Char.isDigit 1 rest
  let (third, rest) ←
    if isOctalDigit c && !second.isEmpty && second.all isOctalDigit then
      takeRun p.size isOctalDigit 1 rest
    else pure ([], rest)
  let ds := c :: (second ++ third)
  if !third.isEmpty then
    if 0o377 < octalValue ds then .error (.at (.octalTooLarge ('\\' :: ds)) place)
    return (.one (octalValue ds) flags.ignoreCase, rest)
  let index := Decimal.ofDigits ds
  if p.opened < index then .error (.at (.invalidReference index) (place + 1))
  p.checkReference index place (tell p.size rest)
  return (.sameAs index flags.ignoreCase, rest)

def escape (p : Progress) (place : Nat) (c : Char) (rest : List Token) : Reading (Expr × List Token) :=
  let flags := p.frame.flags
  match anchorEscape? flags.ascii c, kindEscape? c, controlEscape? c with
  | some a, _, _ => .ok (.anchor a, rest)
  | _, some (k, negated), _ => .ok (.set false false [.kind k negated flags.ascii], rest)
  | _, _, some n => .ok (.one n flags.ignoreCase, rest)
  | none, none, none =>
    if c = '0' then do
      let (ds, rest) ← takeRun p.size isOctalDigit 2 rest
      return (.one (octalValue ds) flags.ignoreCase, rest)
    else if c.isDigit then p.numberEscape place c rest
    else do
      let (n, rest) ← characterEscape p.size place c rest
      return (.one n flags.ignoreCase, rest)

end Progress

/-! ## Sets -/

/-- One end of a range or a single member. -/
def setItem (size : Nat) (ascii : Bool) (t : Token) (rest : List Token) :
    Reading (Member × List Token) :=
  match t.text with
  | ['\\', c] => setEscape size ascii t.place c rest
  | c :: _ => .ok (.one c.toNat, rest)
  | [] => .ok (.one 0, rest)

/-- The range between two members that are characters in order. -/
def range (size : Nat) (rest : List Token) (low high : Token) : Member → Member → Reading Member
  | .one a, .one b => if a ≤ b then .ok (.range a b) else bad
  | _, _ => bad
where
  bad := .error <| .at (.badRange low.text high.text)
    (tell size rest - (low.text.length + 1 + high.text.length))

/-- The members up to the closing bracket, latest first. A bracket that comes first is a member. -/
def setMembers (size : Nat) (ascii : Bool) (opening : Nat) : (fuel : Nat) → List Member → List Token →
    Reading (List Member × List Token)
  | 0, _, _ => .error (.at .unterminatedSet opening)
  | _, _, [] => .error (.at .unterminatedSet opening)
  | fuel + 1, members, t :: rest => do
    let rest ← advance size rest
    if t.text = [']'] && !members.isEmpty then return (members, rest)
    let (low, rest) ← setItem size ascii t rest
    let (dash, rest) ← accept size '-' rest
    if !dash then setMembers size ascii opening fuel (low :: members) rest
    else
      match rest with
      | [] => .error (.at .unterminatedSet opening)
      | u :: rest =>
        let rest ← advance size rest
        if u.text = [']'] then return (.one '-'.toNat :: low :: members, rest)
        let (high, rest) ← setItem size ascii u rest
        let member ← range size rest t u low high
        setMembers size ascii opening fuel (member :: members) rest

def bracket (p : Progress) (place : Nat) (rest : List Token) : Reading (Expr × List Token) := do
  let flags := p.frame.flags
  let (negated, rest) ← accept p.size '^' rest
  let (members, rest) ← setMembers p.size flags.ascii place (rest.length + 1) [] rest
  return (.set negated flags.ignoreCase members.reverse, rest)

/-! ## Repetition -/

/-- The bounds of a repetition. -/
structure Bounds where
  least : Nat
  most : Option Nat

/-- Counts from here on are refused. -/
def repeatLimit : Nat := 4294967295

def readCount (ds : List Char) : Reading Nat :=
  if Decimal.digitLimit < ds.length then .error (.oversizedRepeat ds.length)
  else if repeatLimit ≤ Decimal.ofDigits ds then .error .hugeRepeat
  else .ok (Decimal.ofDigits ds)

/-- The bounds in braces, given what follows the opening one; none if it opens no valid count. -/
def braces (size : Nat) (rest : List Token) : Reading (Option (Bounds × List Token)) := do
  if nextIs '\x7d' rest then return none
  let place := tell size rest
  let (low, rest) ← takeRun size Char.isDigit rest.length rest
  let (comma, rest) ← accept size ',' rest
  let (high, rest) ← if comma then takeRun size Char.isDigit rest.length rest else pure (low, rest)
  let (closed, rest) ← accept size '\x7d' rest
  if !closed then return none
  let least ← if low.isEmpty then pure 0 else readCount low
  if high.isEmpty then return some (⟨least, none⟩, rest)
  let most ← readCount high
  if most < least then .error (.at .leastAboveMost place)
  return some (⟨least, some most⟩, rest)

namespace Progress

/-- Repeats the latest part of the current branch. -/
def quantify (p : Progress) (place : Nat) (b : Bounds) (rest : List Token) : Reading Progress := do
  match p.frame.parts with
  | [] | .anchor _ :: _ => .error (.at .nothingToRepeat place)
  | .repeated .. :: _ => .error (.at .multipleRepeat place)
  | e :: parts =>
    let (isLazy, rest) ← accept p.size '?' rest
    let (isPossessive, rest) ← if isLazy then pure (false, rest) else accept p.size '+' rest
    let greed := if isLazy then .lazy else if isPossessive then .possessive else .greedy
    return { p with rest, frame := { p.frame with parts := .repeated greed b.least b.most e :: parts } }

def append (p : Progress) (e : Expr) (rest : List Token) : Progress :=
  { p with rest, frame := p.frame.append e }

/-! ## Groups -/

def push (p : Progress) (opening : Opening) (place : Nat) (flags : Flags) (rest : List Token) : Progress :=
  { p with rest, frame := { opening, place, flags }, outer := p.frame :: p.outer }

def openCapture (p : Progress) (name : Option (List Char)) (place : Nat) (rest : List Token) :
    Reading Progress := do
  let index := p.opened + 1
  let names ← match name with
    | none => pure p.names
    | some name =>
      match p.names.lookup name with
      | some former =>
        .error (.at (.redefinedName name index former) (tell p.size rest - (name.length + 1)))
      | none => pure ((name, index) :: p.names)
  return { p with opened := index, names }.push (.capture index) place p.frame.flags rest

end Progress

def isName (cs : List Char) : Bool :=
  match cs with
  | [] => false
  | c :: _ => !Text.isDecimalDigit c && cs.all Text.isWord

def checkName (size : Nat) (name : List Char) (rest : List Token) : Reading Unit :=
  if isName name then .ok () else .error (.at (.badName name) (tell size rest - (name.length + 1)))

/-- A change of flags by their letters. -/
structure FlagSet where
  on : List Char
  off : List Char

def flagLetters : List Char := ['i', 'L', 'm', 's', 'x', 'a', 't', 'u']
def typeLetters : List Char := ['a', 'L', 'u']

/-- Adds a letter to those turned on; the classes can have one type only. -/
def addFlag (size : Nat) (on : List Char) (c : Char) (rest : List Token) : Reading (List Char) :=
  if c = 'L' then .error (.at (.flags .locale) (tell size rest))
  else if typeLetters.contains c && on.any (fun d => typeLetters.contains d && d ≠ c) then
    .error (.at (.flags .conflicting) (tell size rest))
  else .ok (c :: on)

/-- The fault of a character that is no flag: a letter is an unknown flag, and anything else stands
where something is missing. -/
def strayFlag (missing : FlagFault) (c : Char) : FlagFault :=
  if Text.isWord c && !Text.isDecimalDigit c && c ≠ '_' then .unknown else missing

/-- Letters that are turned on, up to what ends them, given the first letter. -/
def lettersOn (size : Nat) (on : List Char) (c : Char) : List Token →
    Reading (List Char × Char × List Token)
  | [] => do
    let _ ← addFlag size on c []
    .error (.at (.flags .unended) size)
  | t :: rest => do
    let on ← addFlag size on c (t :: rest)
    let rest' ← advance size rest
    match t.text with
    | [d] =>
      if d = ')' ∨ d = '-' ∨ d = ':' then return (on, d, rest')
      else if flagLetters.contains d then lettersOn size on d rest
      else .error (.at (.flags (strayFlag .unended d)) t.place)
    | _ => .error (.at (.flags .unended) t.place)

/-- Letters that are turned off, up to the colon. `missing` is the fault where a letter or the colon
is missing. -/
def lettersOff (size : Nat) (off : List Char) (missing : FlagFault) : List Token →
    Reading (List Char × List Token)
  | [] => .error (.at (.flags missing) size)
  | t :: rest => do
    let rest' ← advance size rest
    match t.text with
    | [d] =>
      if d = ':' && !off.isEmpty then return (off, rest')
      else if flagLetters.contains d then
        if typeLetters.contains d then .error (.at (.flags .typeTurnedOff) (tell size rest'))
        else lettersOff size (d :: off) .unendedTurnedOff rest
      else .error (.at (.flags (strayFlag missing d)) t.place)
    | _ => .error (.at (.flags missing) t.place)

/-- Flags for the whole pattern, or for the group that they open. -/
inductive FlagScope where
  | whole (on : List Char)
  | inGroup (change : FlagSet)

def readFlags (size : Nat) (c : Char) (rest : List Token) : Reading (FlagScope × List Token) := do
  let (on, ending, rest) ← if c = '-' then pure ([], '-', rest) else lettersOn size [] c rest
  if ending = ')' then return (.whole on, rest)
  if on.contains 't' then .error (.at (.flags .globalTurnedOn) (tell size rest - 1))
  let (off, rest) ← if ending = '-' then lettersOff size [] .noneTurnedOff rest else pure ([], rest)
  if off.contains 't' then .error (.at (.flags .globalTurnedOff) (tell size rest - 1))
  if on.any off.contains then .error (.at (.flags .turnedOnAndOff) (tell size rest - 1))
  return (.inGroup ⟨on, off⟩, rest)

def Flags.turnOn (f : Flags) : Char → Flags
  | 'i' => { f with ignoreCase := true }
  | 'm' => { f with multiline := true }
  | 's' => { f with dotAll := true }
  | 'x' => { f with verbose := true }
  | 'a' => { f with ascii := true }
  | 'u' => { f with unicode := true }
  | _ => f

def Flags.turnOff (f : Flags) : Char → Flags
  | 'i' => { f with ignoreCase := false }
  | 'm' => { f with multiline := false }
  | 's' => { f with dotAll := false }
  | 'x' => { f with verbose := false }
  | _ => f

/-- In a group either of the two types of classes replaces the other. -/
def Flags.change (f : Flags) (s : FlagSet) : Flags :=
  let f := if s.on.any typeLetters.contains then { f with ascii := false, unicode := false } else f
  s.off.foldl Flags.turnOff (s.on.foldl Flags.turnOn f)

namespace Progress

/-- A reference by name. -/
def namedReference (p : Progress) (rest : List Token) : Reading Progress := do
  let (name, rest) ← takeUntil p.size ')' "group name" [] rest
  checkName p.size name rest
  let place := tell p.size rest - (name.length + 1)
  match p.names.lookup name with
  | none => .error (.at (.unknownName name) place)
  | some index =>
    p.checkReference index place (tell p.size rest)
    return p.append (.sameAs index p.frame.flags.ignoreCase) rest

/-- The group number that a condition asks for, by name or by number. -/
def conditionIndex (p : Progress) (condition : List Char) (rest : List Token) : Reading Nat :=
  let place := tell p.size rest - (condition.length + 1)
  if isName condition then
    match p.names.lookup condition with
    | none => .error (.at (.unknownName condition) place)
    | some index => .ok index
  else
    match Text.readInteger condition with
    | .ok (.ofNat 0) => .error (.at .badGroupNumber place)
    | .ok (.ofNat n) => if 1073741823 ≤ n then .error (.at (.invalidReference n) place) else .ok n
    | _ => .error (.at (.badName condition) place)

def openConditional (p : Progress) (place : Nat) (rest : List Token) : Reading Progress := do
  let (condition, rest) ← takeUntil p.size ')' "group name" [] rest
  let index ← p.conditionIndex condition rest
  let here := tell p.size rest
  if p.behindLimit.isSome then p.checkReference index here here
  let conditions := if (p.conditions.lookup index).isSome || isName condition then p.conditions
    else p.conditions ++ [(index, here - condition.length - 1)]
  return { p with conditions }.push (.conditional index) place p.frame.flags rest

/-- Skips a comment, which has no part in the expression. -/
def skipComment (size : Nat) (place : Nat) : List Token → Reading (List Token)
  | [] => .error (.at .unterminatedComment place)
  | t :: rest => do
    let rest' ← advance size rest
    if t.text = [')'] then return rest' else skipComment size place rest

/-- What follows `(?P`. -/
def openNamed (p : Progress) (place : Nat) (rest : List Token) : Reading Progress := do
  let (angle, rest) ← accept p.size '<' rest
  if angle then
    let (name, rest) ← takeUntil p.size '>' "group name" [] rest
    checkName p.size name rest
    p.openCapture (some name) place rest
  else
    let (equals, rest) ← accept p.size '=' rest
    if equals then p.namedReference rest
    else
      match rest with
      | [] => .error (.at .unexpectedEnd p.size)
      | t :: rest =>
        let rest ← advance p.size rest
        .error (.at (.unknownExtension ('P' :: t.text)) (tell p.size rest - (t.text.length + 2)))

def openBehind (p : Progress) (place : Nat) (rest : List Token) : Reading Progress := do
  match rest with
  | [] => .error (.at .unexpectedEnd p.size)
  | t :: rest =>
    let rest ← advance p.size rest
    if t.text = ['='] ∨ t.text = ['!'] then
      return { p with behindLimit := some (p.behindLimit.getD p.opened) }.push
        (.behind (t.text = ['!']) p.behindLimit) place p.frame.flags rest
    else .error (.at (.unknownExtension ('<' :: t.text)) (tell p.size rest - (t.text.length + 2)))

def openFlags (p : Progress) (place : Nat) (c : Char) (rest : List Token) : Reading Progress := do
  match ← readFlags p.size c rest with
  | (.whole on, rest) =>
    if p.outer.isEmpty && p.frame.branches.isEmpty && p.frame.parts.isEmpty then
      return { p with rest, frame := { p.frame with flags := on.foldl Flags.turnOn p.frame.flags } }
    else .error (.at (.flags .notAtStart) place)
  | (.inGroup change, rest) => return p.push .plain place (p.frame.flags.change change) rest

/-- What follows an opening parenthesis. -/
def openGroup (p : Progress) (place : Nat) (rest : List Token) : Reading Progress := do
  let (extended, rest) ← accept p.size '?' rest
  if !extended then p.openCapture none place rest
  else
    match rest with
    | [] => .error (.at .unexpectedEnd p.size)
    | t :: rest =>
      let rest ← advance p.size rest
      let flags := p.frame.flags
      match t.text with
      | ['P'] => p.openNamed place rest
      | [':'] => return p.push .plain place flags rest
      | ['#'] => return { p with rest := ← skipComment p.size place rest }
      | ['='] => return p.push (.ahead false) place flags rest
      | ['!'] => return p.push (.ahead true) place flags rest
      | ['<'] => p.openBehind place rest
      | ['('] => p.openConditional place rest
      | ['>'] => return p.push .atomic place flags rest
      | [c] =>
        if c = '-' || flagLetters.contains c then p.openFlags place c rest
        else .error (.at (.unknownExtension t.text) (tell p.size rest - (t.text.length + 1)))
      | text => .error (.at (.unknownExtension text) (tell p.size rest - (text.length + 1)))

def groupWidth (p : Progress) (index : Nat) : Width := (p.closed.lookup index).getD (.exactly 0)

/-- The expression that a closing parenthesis completes. -/
def completed (p : Progress) : Expr × Progress :=
  let body := p.frame.body
  let width := body.width p.groupWidth
  match p.frame.opening with
  | .pattern => (body, p)
  | .plain => (.group none body, p)
  | .capture index => (.group (some index) body, { p with closed := (index, width) :: p.closed })
  | .atomic => (.atomic body, p)
  | .ahead negated => (.ahead negated body, p)
  | .behind negated outerLimit =>
    (.behind negated width.least body, { p with
      behindLimit := outerLimit
      unevenBehind := p.unevenBehind || width.most ≠ some width.least })
  | .conditional index =>
    match (p.frame.branch :: p.frame.branches).reverse with
    | yes :: no :: _ => (.ifGroup index yes no, p)
    | yes :: [] => (.ifGroup index yes .empty, p)
    | [] => (.ifGroup index .empty .empty, p)

def nextBranch (p : Progress) (place : Nat) (rest : List Token) : Reading Progress :=
  match p.frame.opening, p.frame.branches with
  | .conditional _, _ :: _ => .error (.at .tooManyBranches place)
  | _, _ => do
    let frame := { p.frame with branches := p.frame.branch :: p.frame.branches, parts := [] }
    return { p with rest := ← advance p.size rest, frame }

/-- Skips a comment up to the end of its line. -/
def skipLine (size : Nat) : List Token → Reading (List Token)
  | [] => .ok []
  | t :: rest => do
    let rest' ← advance size rest
    if t.text = ['\n'] then return rest' else skipLine size rest

def isVerboseSpace (c : Char) : Bool := c = ' ' || (0x09 ≤ c.toNat && c.toNat ≤ 0x0d)

/-- Reads one token and what belongs to it. -/
def step (p : Progress) (t : Token) (rest : List Token) : Reading Progress := do
  let rest ← advance p.size rest
  let flags := p.frame.flags
  match t.text with
  | ['\\', c] =>
    let (e, rest) ← p.escape t.place c rest
    return p.append e rest
  | [c] =>
    if flags.verbose && isVerboseSpace c then return { p with rest }
    else if flags.verbose && c = '#' then return { p with rest := ← skipLine p.size rest }
    else
      match c with
      | '[' =>
        let (e, rest) ← bracket p t.place rest
        return p.append e rest
      | '*' => p.quantify t.place ⟨0, none⟩ rest
      | '+' => p.quantify t.place ⟨1, none⟩ rest
      | '?' => p.quantify t.place ⟨0, some 1⟩ rest
      | '\x7b' =>
        match ← braces p.size rest with
        | none => return p.append (.one c.toNat flags.ignoreCase) rest
        | some (bounds, rest) => p.quantify t.place bounds rest
      | '.' => return p.append (.any flags.dotAll) rest
      | '(' => p.openGroup t.place rest
      | '^' => return p.append (.anchor (if flags.multiline then .lineStart else .textStart)) rest
      | '$' => return p.append (.anchor (if flags.multiline then .lineEnd else .finalEnd)) rest
      | c => return p.append (.one c.toNat flags.ignoreCase) rest
  | _ => return { p with rest }

/-- The end of the pattern, or a closing parenthesis without an opening one. -/
def finish (p : Progress) : Reading Expr := do
  if p.frame.flags.ascii && p.frame.flags.unicode then .error .conflictingTypes
  if !p.rest.isEmpty then .error (.at .unbalancedParenthesis (tell p.size p.rest))
  match p.conditions.find? fun c => p.opened < c.1 with
  | some (index, place) => .error (.at (.invalidReference index) place)
  | none => pure ()
  if p.unevenBehind then .error .unevenBehind
  return p.frame.body

def run : (fuel : Nat) → Progress → Reading Expr
  | 0, p => p.finish
  | fuel + 1, p =>
    match p.rest, p.outer with
    | [], [] => p.finish
    | [], _ :: _ => .error (.at .unterminatedGroup p.frame.place)
    | t :: rest, outer =>
      if t.text = [')'] then
        match outer with
        | [] => p.finish
        | frame :: outer => do
          let rest ← advance p.size rest
          let (e, p) := p.completed
          run fuel { p with rest, outer, frame := frame.append e }
      else if t.text = ['|'] then do run fuel (← p.nextBranch t.place rest)
      else do run fuel (← p.step t rest)

end Progress

/-- The expression that a pattern writes. -/
def read (pattern : List Char) : Reading Expr := do
  let size := pattern.length
  let rest ← advance size (tokensFrom 0 pattern)
  Progress.run (rest.length + 1)
    { size, rest, frame := { opening := .pattern, place := 0, flags := {} }, outer := [] }

end WorkloadDrift.Regex
