import WorkloadDrift.Comparison
import WorkloadDrift.Change.Traversal
import WorkloadDrift.Proofs.Change.Forest

/-!
# Differences by value

One difference between two snapshots, told by the values alone. The change node
that stands for it follows from it; only the hash of the node needs a digest.
-/
namespace WorkloadDrift

/-- What a change node tells apart from the hashes that tie it into its graph. -/
structure Finding where
  type : NodeType
  path : String
  level : Int
  network : Option NetworkEvent := none
  file : Option FileEvent := none
  change : Change := {}
  deriving DecidableEq, Repr

namespace Node

def finding (n : Node) : Finding where
  type := n.type
  path := n.path
  level := n.level
  network := n.network
  file := n.file
  change := n.change

/-- What a node tells and how many nodes stand right below it. -/
def shape (n : Node) : Finding × Nat := (n.finding, n.children.length)

end Node

namespace Event

def file? : Event → Option FileEvent
  | .file e => some e
  | .network _ => none

def network? : Event → Option NetworkEvent
  | .network e => some e
  | .file _ => none

def nodeType : Event → NodeType
  | .file _ => .fileEvent
  | .network _ => .networkEvent

end Event

/-- The parts of a snapshot that have names. -/
inductive PartKind where
  | cluster | namespaceNode | resource
  deriving DecidableEq, Repr

namespace PartKind

def type : PartKind → NodeType
  | cluster => .cluster
  | namespaceNode => .namespaceNode
  | resource => .resource

def level : PartKind → Int
  | cluster => 1
  | namespaceNode => 2
  | resource => 3

end PartKind

inductive PartChange where
  | inserted | removed | changed
  deriving DecidableEq, Repr

namespace PartChange

def kind : PartChange → String
  | inserted => EditKind.insert.name
  | removed => EditKind.remove.name
  | changed => changedKind

def change (name : String) : PartChange → Change
  | inserted => { insert := [name] }
  | removed => { remove := [name] }
  | changed => {}

end PartChange

/-- A part of a snapshot that came or went, or that differs inside. `value` is the part itself, the
latest one if it stands on both sides. -/
structure PartDrift where
  part : PartKind
  path : String
  name : String
  how : PartChange
  value : Json

/-- A value of an event's field as a list; an empty one counts as absent. -/
def present (value : String) : List String := if value = "" then [] else [value]

/-- A field that became another, at a position of a list of events at a path. The payload is the
event that it is shown with, and `paired` says whether both sides have an event there. -/
structure FieldDrift where
  category : EventCategory
  path : String
  index : Nat
  field : String
  payload : Event
  old : String
  new : String
  paired : Bool

namespace FieldDrift

def finding (f : FieldDrift) : Finding where
  type := f.payload.nodeType
  path := f.path ++ "/" ++ f.field
  level := leafLevel
  network := f.payload.network?
  file := f.payload.file?
  change := {
    insert := present f.new
    remove := present f.old
    field := f.field
    category := f.category.name }

def scope (f : FieldDrift) : String := f.path ++ "/" ++ toString f.index ++ "/" ++ f.field

def kind (f : FieldDrift) : String :=
  Comparison.joined "+" (((present f.old).map fun _ => EditKind.remove.name) ++
    (present f.new).map fun _ => EditKind.insert.name)

def content (f : FieldDrift) : String :=
  if f.paired then
    Comparison.joined "," (present f.old) ++ "->" ++ Comparison.joined "," (present f.new)
  else f.old ++ f.new

end FieldDrift

inductive Drift where
  | root (latest : Workload)
  | part (p : PartDrift)
  | field (f : FieldDrift)

namespace Drift

def finding : Drift → Finding
  | root _ => { type := .workload, path := rootPath, level := 0 }
  | part p => {
    type := p.part.type, path := p.path, level := p.part.level, change := p.how.change p.name }
  | field f => f.finding

def field? : Drift → Option FieldDrift
  | field f => some f
  | _ => none

variable (digest : Digest)

/-- The text that is digested to the hash of the node. -/
def text : Drift → String
  | root latest => latest.toJson.canonical
  | part p => changeText p.path p.how.kind (digest.value p.value)
  | field f => changeText f.scope f.kind f.content

def hash (d : Drift) : String := digest (d.text digest)

def delta (parentHash : String) (d : Drift) : Delta where
  node := {
    type := d.finding.type
    hash := d.hash digest
    path := d.finding.path
    level := d.finding.level
    network := d.finding.network
    file := d.finding.file
    change := d.finding.change }
  parentHash := parentHash

@[simp] theorem hash_delta (p : String) (d : Drift) : (d.delta digest p).node.hash = d.hash digest := rfl

@[simp] theorem parentHash_delta (p : String) (d : Drift) : (d.delta digest p).parentHash = p := rfl

/-- The changes of a forest, the roots of it under a given hash. -/
def deltas (p : String) : Forest Drift → List Delta
  | .nil => []
  | .cons d below rest => d.delta digest p :: (deltas (d.hash digest) below ++ deltas p rest)

@[simp] theorem deltas_nil (p : String) : deltas digest p .nil = [] := rfl

@[simp] theorem deltas_leaf (p : String) (d : Drift) :
    deltas digest p (.leaf d) = [d.delta digest p] := rfl

@[simp] theorem deltas_append (p : String) (f g : Forest Drift) :
    deltas digest p (f ++ g) = deltas digest p f ++ deltas digest p g := by
  induction f with
  | nil => rfl
  | cons d below rest _ ih => simp [deltas, ih]

@[simp] theorem deltas_flatMap {β : Type} (p : String) (l : List β) (f : β → Forest Drift) :
    deltas digest p (.flatMap l f) = l.flatMap fun b => deltas digest p (f b) := by
  induction l with
  | nil => rfl
  | cons b l ih => simp [ih]

end Drift
end WorkloadDrift
