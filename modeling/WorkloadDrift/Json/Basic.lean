import WorkloadDrift.Decimal.Binary64

/-!
# JSON values

Objects keep their members in document order. A number written with a fraction
or an exponent is a `float`, any other an `int` of any size.
-/
namespace WorkloadDrift

inductive Json where
  | null
  | bool (b : Bool)
  | int (n : Int)
  | float (x : Binary64)
  | str (s : String)
  | arr (items : List Json)
  | obj (members : List (String × Json))
  deriving Inhabited, Repr

namespace Json

abbrev Members := List (String × Json)

/-- The name of a value's kind, as it stands in messages. -/
def kindName : Json → String
  | null => "NoneType"
  | bool _ => "bool"
  | int _ => "int"
  | float _ => "float"
  | str _ => "str"
  | arr _ => "list"
  | obj _ => "dict"

/-- Null, false, zero, and the empty text, list and object. -/
def isBlank : Json → Bool
  | null => true
  | bool b => !b
  | int n => n = 0
  | float x => x.isZero
  | str s => s = ""
  | arr items => items.isEmpty
  | obj members => members.isEmpty

/-- Sets a member: in its place if the name is present, else at the end. -/
def Members.set (name : String) (value : Json) : Members → Members
  | [] => [(name, value)]
  | (n, v) :: rest => if n = name then (n, value) :: rest else (n, v) :: Members.set name value rest

def Members.get? (members : Members) (name : String) : Option Json := members.lookup name

/-- A member's value, null if it is absent. -/
def Members.value (members : Members) (name : String) : Json := (members.lookup name).getD .null

end Json
end WorkloadDrift
