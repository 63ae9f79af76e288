import WorkloadDrift.Report
import WorkloadDrift.Settings

/-!
# Journal

What a run tells about itself while it works. Each record has a level, below
which it is not shown.
-/
namespace WorkloadDrift.Journal

/-- The part of the program that speaks, what it says, and the facts that go with it. -/
structure Record where
  component : String
  event : String
  level : LogLevel
  facts : Json.Members

namespace Record

def members (r : Record) : Json.Members :=
  ("component", .str r.component) :: r.facts ++
    [("event", .str r.event), ("level", .str r.level.name)]

/-- The record on one line; its facts are texts and numbers. -/
def line (r : Record) : String :=
  let parts := r.members.map fun (name, value) => (Json.str name).pretty ++ ": " ++ value.pretty
  "\x7b" ++ ", ".intercalate parts ++ "\x7d"

def isShown (threshold : LogLevel) (r : Record) : Bool := threshold.rank ≤ r.level.rank

end Record

def count (name : String) (n : Nat) : String × Json := (name, .int n)

def snapshotLoaded (path : String) (w : Workload) : Record :=
  ⟨"loader", "snapshot loaded", .info,
    [("path", .str path), count "clusters" w.clusters.entries.length, count "events" w.totalEvents]⟩

/-- A change above the leaves and below the root is a subtree's. -/
def isSubtree (d : Delta) : Bool := 0 < d.node.level && d.node.level < leafLevel

/-- The kind of edit that brought or took a whole subtree. -/
def wholeEdit? (c : Change) : Option EditKind :=
  if !c.insert.isEmpty then some .insert
  else if !c.remove.isEmpty then some .remove
  else none

def subtreeCompared (d : Delta) : Record :=
  let path := ("path", Json.str d.node.path)
  match wholeEdit? d.node.change with
  | none => ⟨"diff.engine", "subtree changed", .debug, [path]⟩
  | some kind =>
    ⟨"diff.engine", "subtree only on one side", .debug, [path, ("change", .str kind.name)]⟩

def comparison (r : Report) : List Record :=
  let root := ("root", Json.str r.rootHash)
  if r.deltas.isEmpty then
    [⟨"diff.engine", "snapshots identical, skipping comparison", .debug, [root]⟩]
  else
    (r.deltas.filter isSubtree).map subtreeCompared ++
      [⟨"diff.engine", "comparison complete", .debug, [root, count "nodes" r.compared]⟩]

def cancellation (r : Report) : List Record := [
  ⟨"diff.cancellation", "cancellation pass complete", .debug,
    [("root", .str r.rootHash), count "canceled" r.moved]⟩,
  ⟨"report", "cancellation finished", .info, [count "canceled" r.moved]⟩]

/-- Criteria without values make no pass over the leaves. -/
def filtering (r : Report) (criteria : Criteria) (canceled : Nat) : List Record :=
  let finished : Record := ⟨"report", "filtering finished", .info, [count "canceled" canceled]⟩
  if criteria.isEmpty then [finished]
  else [
    ⟨"diff.filters", "filter pass complete", .debug,
      [("root", .str r.rootHash), count "canceled" canceled]⟩,
    finished]

/-- What building a report tells. -/
def report (criteria : Criteria) (r : Report) : List Record :=
  comparison r ++
    [⟨"report", "comparison finished", .info, [count "nodes" r.compared, count "changes" r.total]⟩] ++
    cancellation r ++ (r.filtered.map (filtering r criteria)).getD [] ++
    [⟨"report", "drift report built", .info, [count "active" r.active, count "canceled" r.canceled]⟩]

def reportWritten (path : String) : Record :=
  ⟨"cli", "report written", .info, [("path", .str path)]⟩

end WorkloadDrift.Journal
