import WorkloadDrift.Event.Basic

/-!
# Change nodes

One difference between two snapshots: a subtree at one of the upper levels, or
a field of an event at the leaf level.
-/
namespace WorkloadDrift

inductive NodeType where
  | workload | cluster | namespaceNode | resource | fileEvent | networkEvent
  deriving DecidableEq, Repr

namespace NodeType

def all : List NodeType := [workload, cluster, namespaceNode, resource, fileEvent, networkEvent]

def name : NodeType → String
  | workload => "workload"
  | cluster => "cluster"
  | namespaceNode => "namespace"
  | resource => "workload-events"
  | fileEvent => "file-process-event"
  | networkEvent => "network-event"

end NodeType

/-- The values that stay, come and go, the field and event category that they belong to, and
whether the change is taken out of account. -/
structure Change where
  keep : List String := []
  insert : List String := []
  remove : List String := []
  field : String := ""
  category : String := ""
  canceled : Bool := false
  deriving DecidableEq, Repr

structure Node where
  type : NodeType
  hash : String
  path : String
  level : Int
  parentHash : String := ""
  network : Option NetworkEvent := none
  file : Option FileEvent := none
  change : Change := {}
  children : List String := []
  deriving DecidableEq, Repr

/-- The level of field changes. -/
def leafLevel : Int := 4

namespace Node

def isLeaf (n : Node) : Bool := n.level = leafLevel

def cancel (n : Node) : Node := { n with change := { n.change with canceled := true } }

def addChild (child : String) (n : Node) : Node := { n with children := n.children ++ [child] }

@[simp] theorem hash_cancel (n : Node) : n.cancel.hash = n.hash := rfl

@[simp] theorem hash_addChild (child : String) (n : Node) : (n.addChild child).hash = n.hash := rfl

end Node

/-- A list of values, null if there are none. -/
def valuesOrNull (values : List String) : Json :=
  if values.isEmpty then .null else .arr (values.map .str)

def Change.toJson (c : Change) : Json := .obj [
  ("keep", valuesOrNull c.keep),
  ("insert", valuesOrNull c.insert),
  ("remove", valuesOrNull c.remove),
  ("granular_event", .str c.category),
  ("event", .str c.field),
  ("canceled", .bool c.canceled)]

end WorkloadDrift
