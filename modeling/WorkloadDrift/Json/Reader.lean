import WorkloadDrift.Json.Token

/-!
# Reading JSON

A pushdown automaton over the tokens. Its state says what may come next, and
its stack holds the open arrays and objects, innermost first.
-/
namespace WorkloadDrift.Json

/-- Why a text is not read: a fault with its place, in lines and columns from one and as a count of
characters before it, or an integer with too many digits. -/
inductive ReadError where
  | malformed (fault : Fault) (line column offset : Nat)
  | oversizedInteger (digits : Nat)
  deriving DecidableEq, Repr

def Fault.message : Fault → String
  | .value => "Expecting value"
  | .propertyName => "Expecting property name enclosed in double quotes"
  | .colon => "Expecting ':' delimiter"
  | .comma => "Expecting ',' delimiter"
  | .unterminatedText => "Unterminated string starting at"
  | .controlCharacter => "Invalid control character at"
  | .badEscape => "Invalid \\escape"
  | .badUnicodeEscape => "Invalid \\uXXXX escape"
  | .extraData => "Extra data"
  | .byteOrderMark => "Unexpected UTF-8 BOM (decode using utf-8-sig)"

def ReadError.message : ReadError → String
  | .malformed fault line column offset =>
    s!"{fault.message}: line {line} column {column} (char {offset})"
  | .oversizedInteger digits => Decimal.oversizedMessage digits

/-- An open container, waiting for the value of its next item or member. -/
inductive Frame where
  | array (before : List Json)
  | object (before : Members) (name : String)

/-- What may come next. Items of an array are held latest first. -/
inductive State where
  | awaitValue (stack : List Frame)
  | awaitFirstItem (stack : List Frame)
  | awaitFirstName (stack : List Frame)
  | awaitName (members : Members) (stack : List Frame)
  | awaitColon (members : Members) (name : String) (stack : List Frame)
  | afterItem (items : List Json) (stack : List Frame)
  | afterMember (members : Members) (stack : List Frame)
  | finished (result : Json)

/-- Puts a complete value into the innermost open container. -/
def State.supply (v : Json) : List Frame → State
  | [] => .finished v
  | .array before :: stack => .afterItem (v :: before) stack
  | .object before name :: stack => .afterMember (Members.set name v before) stack

/-- What stopped the automaton. -/
inductive Stop where
  | at (reason : Misplaced)
  | oversized (digits : Nat)

/-- The automaton at the first token of a value. -/
def State.begin (stack : List Frame) (t : Placed) : Except Stop State :=
  match t.token with
  | .scalar v => .ok (.supply v stack)
  | .text s => .ok (.supply (.str s) stack)
  | .openBracket => .ok (.awaitFirstItem stack)
  | .openBrace => .ok (.awaitFirstName stack)
  | .oversized n => .error (.oversized n)
  | .invalid reason => .error (.at reason)
  | _ => .error (.at ⟨.value, t.place⟩)

def State.readName (members : Members) (stack : List Frame) (t : Placed) : Except Stop State :=
  match t.token with
  | .text s => .ok (.awaitColon members s stack)
  | .invalid reason =>
    .error (.at (if t.place.head? = some '"' then reason else ⟨.propertyName, t.place⟩))
  | _ => .error (.at ⟨.propertyName, t.place⟩)

def State.step (s : State) (t : Placed) : Except Stop State :=
  match s with
  | .awaitValue stack => begin stack t
  | .awaitFirstItem stack =>
    match t.token with
    | .closeBracket => .ok (.supply (.arr []) stack)
    | _ => begin (.array [] :: stack) t
  | .awaitFirstName stack =>
    match t.token with
    | .closeBrace => .ok (.supply (.obj []) stack)
    | _ => readName [] stack t
  | .awaitName members stack => readName members stack t
  | .awaitColon members name stack =>
    match t.token with
    | .colon => .ok (.awaitValue (.object members name :: stack))
    | _ => .error (.at ⟨.colon, t.place⟩)
  | .afterItem items stack =>
    match t.token with
    | .comma => .ok (.awaitValue (.array items :: stack))
    | .closeBracket => .ok (.supply (.arr items.reverse) stack)
    | _ => .error (.at ⟨.comma, t.place⟩)
  | .afterMember members stack =>
    match t.token with
    | .comma => .ok (.awaitName members stack)
    | .closeBrace => .ok (.supply (.obj members) stack)
    | _ => .error (.at ⟨.comma, t.place⟩)
  | .finished _ => .error (.at ⟨.extraData, t.place⟩)

/-- The value at the end of the text, or the fault of ending there. -/
def State.finish : State → Except Stop Json
  | .finished v => .ok v
  | .awaitValue _ | .awaitFirstItem _ => .error (.at ⟨.value, []⟩)
  | .awaitFirstName _ | .awaitName .. => .error (.at ⟨.propertyName, []⟩)
  | .awaitColon .. => .error (.at ⟨.colon, []⟩)
  | .afterItem .. | .afterMember .. => .error (.at ⟨.comma, []⟩)

def ofTokens (ts : List Placed) : Except Stop Json := do
  (← ts.foldlM State.step (.awaitValue [])).finish

/-- The place of a fault, counted in the text that `place` ends. -/
def locate (text : List Char) (reason : Misplaced) : ReadError :=
  let before := text.take (text.length - reason.place.length)
  let line := before.count '\n' + 1
  let column := (before.reverse.takeWhile (· ≠ '\n')).length + 1
  .malformed reason.fault line column before.length

def ofChars (text : List Char) : Except ReadError Json :=
  if text.head? = some '\uFEFF' then .error (locate text ⟨.byteOrderMark, text⟩)
  else
    match ofTokens (tokens text) with
    | .ok v => .ok v
    | .error (.at reason) => .error (locate text reason)
    | .error (.oversized n) => .error (.oversizedInteger n)

/-- The value written by a text. -/
def parse (text : String) : Except ReadError Json := ofChars text.toList

end WorkloadDrift.Json
