import WorkloadDrift.Json.Basic
import WorkloadDrift.Decimal.Digits

/-!
# Observed events

What a pod was seen to do: file accesses and process starts, and connections.
-/
namespace WorkloadDrift

inductive EventCategory where
  | file | process | ingress | egress | bind
  deriving DecidableEq, Repr

namespace EventCategory

def all : List EventCategory := [file, process, ingress, egress, bind]

def name : EventCategory → String
  | file => "file"
  | process => "process"
  | ingress => "ingress"
  | egress => "egress"
  | bind => "bind"

def isNetwork : EventCategory → Bool
  | file | process => false
  | ingress | egress | bind => true

end EventCategory

structure Container where
  name : String
  image : String
  deriving DecidableEq, Repr

def Container.toJson (c : Container) : Json := .obj [("name", .str c.name), ("image", .str c.image)]

/-- The control-plane object that a network peer turned out to be. -/
structure ControlPlaneResource where
  namespaceName : String
  type : String
  deriving DecidableEq, Repr

def ControlPlaneResource.toJson (r : ControlPlaneResource) : Json :=
  .obj [("namespace", .str r.namespaceName), ("type", .str r.type)]

structure FileEvent where
  pod : String
  container : Container
  source : String
  destination : String
  count : Int
  updatedTime : Int
  deriving DecidableEq, Repr

structure NetworkEvent where
  pod : String
  container : Container
  type : String
  ip : String
  port : Int
  protocol : String
  peerDomainName : String
  command : String
  cpResource : Option ControlPlaneResource
  count : Int
  updatedTime : Int
  deriving DecidableEq, Repr

def integerText (n : Int) : String := String.ofList (Decimal.ofInt n)

namespace FileEvent

/-- The fields whose change is reported. -/
def comparedFields : List String := ["source", "destination"]

/-- The text of a field, empty for a name that is none. -/
def fieldValue (e : FileEvent) : String → String
  | "source" => e.source
  | "destination" => e.destination
  | "pod" => e.pod
  | "containerName" => e.container.name
  | "containerImage" => e.container.image
  | "count" => integerText e.count
  | "updatedTime" => integerText e.updatedTime
  | _ => ""

def toJson (e : FileEvent) : Json := .obj [
  ("pod", .str e.pod),
  ("container", e.container.toJson),
  ("source", .str e.source),
  ("destination", .str e.destination),
  ("count", .int e.count),
  ("updatedTime", .int e.updatedTime)]

end FileEvent

namespace NetworkEvent

/-- The fields whose change is reported. -/
def comparedFields : List String := ["ip", "port", "protocol", "peerDomainName", "command"]

/-- The text of a field, empty for a name that is none. -/
def fieldValue (e : NetworkEvent) : String → String
  | "ip" => e.ip
  | "port" => integerText e.port
  | "protocol" => e.protocol
  | "peerDomainName" => e.peerDomainName
  | "command" => e.command
  | "pod" => e.pod
  | "type" => e.type
  | "count" => integerText e.count
  | "updatedTime" => integerText e.updatedTime
  | _ => ""

def toJson (e : NetworkEvent) : Json := .obj [
  ("pod", .str e.pod),
  ("container", e.container.toJson),
  ("type", .str e.type),
  ("ip", .str e.ip),
  ("port", .int e.port),
  ("protocol", .str e.protocol),
  ("peerDomainName", .str e.peerDomainName),
  ("command", .str e.command),
  ("cpResource", (e.cpResource.map ControlPlaneResource.toJson).getD .null),
  ("count", .int e.count),
  ("updatedTime", .int e.updatedTime)]

end NetworkEvent

inductive Event where
  | file (e : FileEvent)
  | network (e : NetworkEvent)
  deriving DecidableEq, Repr

def Event.fieldValue : Event → String → String
  | .file e => e.fieldValue
  | .network e => e.fieldValue

def EventCategory.comparedFields (c : EventCategory) : List String :=
  if c.isNetwork then NetworkEvent.comparedFields else FileEvent.comparedFields

end WorkloadDrift
