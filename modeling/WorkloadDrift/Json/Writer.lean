import WorkloadDrift.Text.Hex
import WorkloadDrift.Decimal.Shortest
import WorkloadDrift.Json.Basic

/-!
# Writing JSON

The compact form with sorted names, which is one text for each value, and the
indented form in ASCII.
-/
namespace WorkloadDrift.Json

def unicodeEscape (n : Nat) : List Char := '\\' :: 'u' :: Hex.digits 4 n

/-- The escapes that every quoted text has: quotes, backslashes and control characters. -/
def escape? (c : Char) : Option (List Char) :=
  match c with
  | '"' => some ['\\', '"']
  | '\\' => some ['\\', '\\']
  | '\x08' => some ['\\', 'b']
  | '\x0c' => some ['\\', 'f']
  | '\n' => some ['\\', 'n']
  | '\r' => some ['\\', 'r']
  | '\t' => some ['\\', 't']
  | c => if c.toNat < 0x20 then some (unicodeEscape c.toNat) else none

def escapePlain (c : Char) : List Char := (escape? c).getD [c]

/-- Characters outside the printable ASCII ones are escaped too, those above the basic plane as two
surrogates. -/
def escapeAscii (c : Char) : List Char :=
  let n := c.toNat
  (escape? c).getD <|
    if n < 0x7f then [c]
    else if n < 0x10000 then unicodeEscape n
    else
      unicodeEscape (0xd800 + (n - 0x10000) / 0x400) ++
        unicodeEscape (0xdc00 + (n - 0x10000) % 0x400)

def quote (escape : Char → List Char) (s : String) : List Char :=
  '"' :: (s.toList.flatMap escape ++ ['"'])

def writeBool (b : Bool) : List Char := (if b then "true" else "false").toList

/-- Parts with a separator between them. -/
def joinWith (separator : List Char) : List (List Char) → List Char
  | [] => []
  | [part] => part
  | part :: parts => part ++ separator ++ joinWith separator parts

mutual

/-- The form without any blank. -/
def compact : Json → List Char
  | null => "null".toList
  | bool b => writeBool b
  | int n => Decimal.ofInt n
  | float x => Decimal.ofBinary64 x
  | str s => quote escapePlain s
  | arr items => '[' :: (joinWith [','] (compactItems items) ++ [']'])
  | obj members => '{' :: (joinWith [','] (compactMembers members) ++ ['}'])

def compactItems : List Json → List (List Char)
  | [] => []
  | v :: items => compact v :: compactItems items

def compactMembers : List (String × Json) → List (List Char)
  | [] => []
  | (name, v) :: members => (quote escapePlain name ++ ':' :: compact v) :: compactMembers members

end

/-- Puts a member before the first one whose name does not come before its own. -/
def insertMember (m : String × Json) : List (String × Json) → List (String × Json)
  | [] => [m]
  | n :: members => if m.1 ≤ n.1 then m :: n :: members else n :: insertMember m members

mutual

/-- The value with the members of every object in the order of their names. -/
def sorted : Json → Json
  | arr items => arr (sortedItems items)
  | obj members => obj (sortedMembers members)
  | v => v

def sortedItems : List Json → List Json
  | [] => []
  | v :: items => sorted v :: sortedItems items

def sortedMembers : List (String × Json) → List (String × Json)
  | [] => []
  | (name, v) :: members => insertMember (name, sorted v) (sortedMembers members)

end

/-- One text for each value, up to the order of object members. -/
def canonical (v : Json) : String := String.ofList (compact (sorted v))

mutual

/-- Whether every number in a value is finite. -/
def isFinite : Json → Bool
  | float x => x.isFinite
  | arr items => finiteItems items
  | obj members => finiteMembers members
  | _ => true

def finiteItems : List Json → Bool
  | [] => true
  | v :: items => isFinite v && finiteItems items

def finiteMembers : List (String × Json) → Bool
  | [] => true
  | (_, v) :: members => isFinite v && finiteMembers members

end

def newline (depth : Nat) : List Char := '\n' :: List.replicate (2 * depth) ' '

/-- Parts between brackets, each on a line of its own. -/
def block (opening closing : Char) (depth : Nat) (parts : List (List Char)) : List Char :=
  if parts.isEmpty then [opening, closing]
  else
    opening :: (newline (depth + 1) ++ joinWith (',' :: newline (depth + 1)) parts ++ newline depth ++
      [closing])

mutual

/-- The ASCII form with two blanks of indentation for each level. -/
def indented (depth : Nat) : Json → List Char
  | null => "null".toList
  | bool b => writeBool b
  | int n => Decimal.ofInt n
  | float x => Decimal.ofBinary64 x
  | str s => quote escapeAscii s
  | arr items => block '[' ']' depth (indentedItems (depth + 1) items)
  | obj members => block '{' '}' depth (indentedMembers (depth + 1) members)

def indentedItems (depth : Nat) : List Json → List (List Char)
  | [] => []
  | v :: items => indented depth v :: indentedItems depth items

def indentedMembers (depth : Nat) : List (String × Json) → List (List Char)
  | [] => []
  | (name, v) :: members =>
    (quote escapeAscii name ++ ':' :: ' ' :: indented depth v) :: indentedMembers depth members

end

def pretty (v : Json) : String := String.ofList (indented 0 v)

end WorkloadDrift.Json
