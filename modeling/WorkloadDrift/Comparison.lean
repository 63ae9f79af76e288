import WorkloadDrift.Snapshot.Basic
import WorkloadDrift.Change.Graph
import WorkloadDrift.EditScript

/-!
# Comparing snapshots

Both trees are walked together. Subtrees with equal digests are skipped. A
subtree on one side only is one change; a subtree on both sides is one change
with the differences inside it below. Events are paired by their positions and
compared field by field.
-/
namespace WorkloadDrift

/-- A change node with the hash of the node that it belongs under. -/
structure Delta where
  node : Node
  parentHash : String
  deriving DecidableEq, Repr

def rootPath : String := "workload"

def changedKind : String := "Change"

namespace Comparison

variable (digest : Digest)

/-- Where a mapping of the snapshot stands: the node above it, and the path of each of its names. -/
structure Site where
  type : NodeType
  level : Int
  parentHash : String
  pathOf : String → String

def Site.delta (s : Site) (name kind content : String) (change : Change) : Delta where
  node := {
    type := s.type
    hash := digest.change (s.pathOf name) kind content
    path := s.pathOf name
    level := s.level
    change }
  parentHash := s.parentHash

def Site.inserted (s : Site) (name content : String) : Delta :=
  s.delta digest name EditKind.insert.name content { insert := [name] }

def Site.removed (s : Site) (name content : String) : Delta :=
  s.delta digest name EditKind.remove.name content { remove := [name] }

def Site.changed (s : Site) (name content : String) : Delta :=
  s.delta digest name changedKind content {}

/-- The changes of one mapping: first the names of the latest side, then those of the baseline
alone. -/
def compareNamed {α : Type} (contentHash : α → String) (s : Site)
    (inside : α → α → (parentHash path : String) → List Delta) (latest baseline : Named α) : List Delta :=
  (latest.entries.flatMap fun (name, new) =>
    match baseline.get? name with
    | none => [s.inserted digest name (contentHash new)]
    | some old =>
      if contentHash new = contentHash old then []
      else
        let delta := s.changed digest name (contentHash new)
        delta :: inside new old delta.node.hash delta.node.path) ++
  (baseline.without latest).map fun (name, old) => s.removed digest name (contentHash old)

/-- Where a list of events stands, and which events it holds. -/
structure EventSite where
  category : EventCategory
  parentHash : String
  path : String

/-- The change of a field of the event at a position. -/
def EventSite.delta (s : EventSite) (payload : Event) (index : Nat) (field kind content : String)
    (change : Change) : Delta where
  node := {
    type := match payload with
      | .file _ => .fileEvent
      | .network _ => .networkEvent
    hash := digest.change (s.path ++ "/" ++ toString index ++ "/" ++ field) kind content
    path := s.path ++ "/" ++ field
    level := leafLevel
    file := match payload with
      | .file e => some e
      | .network _ => none
    network := match payload with
      | .network e => some e
      | .file _ => none
    change := { change with field, category := s.category.name } }
  parentHash := s.parentHash

/-- How a field value became another; an empty one counts as absent. -/
def fieldEdits (old new : String) : List (Edit String) :=
  if new = "" then [⟨.remove, old⟩]
  else if old = "" then [⟨.insert, new⟩]
  else editScript [old] [new]

def valuesOf (kind : EditKind) (edits : List (Edit String)) : List String :=
  (edits.filter fun e => e.kind = kind).map (·.value)

def joined (separator : String) (parts : List String) : String := separator.intercalate parts

/-- The change of a field of two paired events, if its value differs. It carries the latest event
unless a value only went. -/
def EventSite.fieldDelta? (s : EventSite) (latest baseline : Event) (index : Nat) (field : String) :
    Option Delta :=
  let new := latest.fieldValue field
  let old := baseline.fieldValue field
  if new = old then none
  else
    let edits := fieldEdits old new
    let insert := valuesOf .insert edits
    let remove := valuesOf .remove edits
    let kinds := (edits.filter fun e => e.kind ≠ .keep).map fun e => e.kind.name
    let payload := if insert.isEmpty then baseline else latest
    some <| s.delta digest payload index field (joined "+" kinds)
      (joined "," remove ++ "->" ++ joined "," insert) { keep := valuesOf .keep edits, insert, remove }

/-- The changes of two events at one position; an empty entry is compared with nothing. -/
def EventSite.pairDeltas (s : EventSite) (index : Nat) : Option Event × Option Event → List Delta
  | (some latest, some baseline) =>
    s.category.comparedFields.filterMap (s.fieldDelta? digest latest baseline index)
  | _ => []

/-- A whole event that came or went is one change for each of its fields with a value. -/
def EventSite.wholeDeltas (s : EventSite) (kind : EditKind) (index : Nat) : Option Event → List Delta
  | none => []
  | some e =>
    s.category.comparedFields.filterMap fun field =>
      let value := e.fieldValue field
      if value = "" then none
      else
        let change : Change := match kind with
          | .insert => { insert := [value] }
          | _ => { remove := [value] }
        some (s.delta digest e index field kind.name value change)

def EventSite.surplus (s : EventSite) (kind : EditKind) (paired : Nat) (events : List (Option Event)) :
    List Delta :=
  ((events.drop paired).zipIdx paired).flatMap fun (e, index) => s.wholeDeltas digest kind index e

def EventSite.deltas (s : EventSite) (latest baseline : List (Option Event)) : List Delta :=
  let paired := min latest.length baseline.length
  ((latest.zip baseline).zipIdx.flatMap fun (pair, index) => s.pairDeltas digest index pair) ++
    s.surplus digest .insert paired latest ++ s.surplus digest .remove paired baseline

def compareEvents (latest baseline : Resource) (parentHash path : String) : List Delta :=
  EventCategory.all.flatMap fun category =>
    let s : EventSite := ⟨category, parentHash, path ++ "/events/" ++ category.name⟩
    s.deltas digest (latest.events.get category) (baseline.events.get category)

def compareResources (kind : ResourceKind) (latest baseline : Named Resource)
    (parentHash path : String) : List Delta :=
  let s : Site := ⟨.resource, 3, parentHash,
    fun name => path ++ "/resource-type/" ++ kind.name ++ "/resource-name/" ++ name⟩
  compareNamed digest (Resource.contentHash digest) s (compareEvents digest) latest baseline

def compareNamespaces (latest baseline : Named Namespace) (parentHash path : String) : List Delta :=
  let s : Site := ⟨.namespaceNode, 2, parentHash, fun name => path ++ "/namespace/" ++ name⟩
  let inside (new old : Namespace) (parentHash path : String) : List Delta :=
    ResourceKind.all.flatMap fun kind =>
      compareResources digest kind (new.ofKind kind) (old.ofKind kind) parentHash path
  compareNamed digest (Namespace.contentHash digest) s inside latest baseline

def compareClusters (latest baseline : Named Cluster) (parentHash path : String) : List Delta :=
  let s : Site := ⟨.cluster, 1, parentHash, fun name => path ++ "/cluster/" ++ name⟩
  let inside (new old : Cluster) (parentHash path : String) : List Delta :=
    compareNamespaces digest new.namespaces old.namespaces parentHash path
  compareNamed digest (Cluster.contentHash digest) s inside latest baseline

def rootDelta (hash : String) : Delta where
  node := { type := .workload, hash, path := rootPath, level := 0 }
  parentHash := ""

/-- The changes in the order in which they are found; none if the digests of the snapshots agree. -/
def deltas (latest baseline : Workload) : List Delta :=
  let root := latest.contentHash digest
  if root = baseline.contentHash digest then []
  else rootDelta root :: compareClusters digest latest.clusters baseline.clusters root rootPath

end Comparison

def ChangeGraph.ofDeltas (deltas : List Delta) : ChangeGraph :=
  deltas.foldl (fun g d => g.add d.node d.parentHash) .empty

/-- The graph of the changes from the baseline to the latest snapshot. -/
def difference (digest : Digest) (latest baseline : Workload) : ChangeGraph :=
  .ofDeltas (Comparison.deltas digest latest baseline)

end WorkloadDrift
