import WorkloadDrift.Event.Basic
import WorkloadDrift.Text.Integer

/-!
# Reading events

An event is an object. Each field may be absent or null, and then has its empty
value; unknown members are ignored. The first fault in the order of the fields
is reported.
-/
namespace WorkloadDrift

inductive Expected where
  | text | integer | object | list
  deriving DecidableEq, Repr

def Expected.phrase : Expected → String
  | text => "a string"
  | integer => "an integer"
  | object => "an object"
  | list => "a list"

/-- Where a document does not have the shape of a snapshot. -/
inductive ShapeError where
  | field (name : String) (expected : Expected) (found : String)
  | member (name : String) (expected : Expected) (found : String)
  | child (mapping name found : String)
  | entry (list found : String)
  | unreadableInteger (fault : Text.IntegerFault)
  deriving DecidableEq, Repr

def ShapeError.message : ShapeError → String
  | field name expected found => s!"field '{name}' must be {expected.phrase}, got {found}"
  | member name expected found => s!"'{name}' must be {expected.phrase}, got {found}"
  | child mapping name found => s!"'{mapping}.{name}' must be an object, got {found}"
  | entry list found => s!"'{list}' entries must be objects, got {found}"
  | unreadableInteger fault => fault.message

abbrev Shaped (α : Type) := Except ShapeError α

namespace Json.Members

def readText (members : Members) (name : String) : Shaped String :=
  match members.value name with
  | .null => .ok ""
  | .str s => .ok s
  | v => .error (.field name .text v.kindName)

/-- Numbers may be written as texts. -/
def readInteger (members : Members) (name : String) : Shaped Int :=
  match members.value name with
  | .null => .ok 0
  | .int n => .ok n
  | .str s => (Text.readInteger s.toList).mapError .unreadableInteger
  | v => .error (.field name .integer v.kindName)

def readObject (members : Members) (name : String) : Shaped Members :=
  match members.value name with
  | .null => .ok []
  | .obj inner => .ok inner
  | v => .error (.field name .object v.kindName)

end Json.Members

def Container.read (members : Json.Members) : Shaped Container := do
  let name ← members.readText "name"
  let image ← members.readText "image"
  return { name, image }

def ControlPlaneResource.read (members : Json.Members) : Shaped ControlPlaneResource := do
  let namespaceName ← members.readText "namespace"
  let type ← members.readText "type"
  return { namespaceName, type }

/-- An absent or null resource is none at all, unlike an empty one. -/
def ControlPlaneResource.read? (members : Json.Members) (name : String) :
    Shaped (Option ControlPlaneResource) :=
  match members.value name with
  | .null => .ok none
  | _ => do return some (← read (← members.readObject name))

def FileEvent.read (members : Json.Members) : Shaped FileEvent := do
  let pod ← members.readText "pod"
  let container ← Container.read (← members.readObject "container")
  let source ← members.readText "source"
  let destination ← members.readText "destination"
  let count ← members.readInteger "count"
  let updatedTime ← members.readInteger "updatedTime"
  return { pod, container, source, destination, count, updatedTime }

def NetworkEvent.read (members : Json.Members) : Shaped NetworkEvent := do
  let pod ← members.readText "pod"
  let container ← Container.read (← members.readObject "container")
  let type ← members.readText "type"
  let ip ← members.readText "ip"
  let port ← members.readInteger "port"
  let protocol ← members.readText "protocol"
  let peerDomainName ← members.readText "peerDomainName"
  let command ← members.readText "command"
  let cpResource ← ControlPlaneResource.read? members "cpResource"
  let count ← members.readInteger "count"
  let updatedTime ← members.readInteger "updatedTime"
  return { pod, container, type, ip, port, protocol, peerDomainName, command, cpResource, count,
           updatedTime }

end WorkloadDrift
