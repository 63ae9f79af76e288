import WorkloadDrift.Change.Path
import WorkloadDrift.Change.Traversal
import WorkloadDrift.Pattern

/-!
# Filter criteria

What a report is about. The first three sets admit, the last two exclude; a set
without values has no effect. Each set is applied on its own.
-/
namespace WorkloadDrift

structure Criteria where
  workloads : PatternSet := {}
  sources : PatternSet := {}
  destinations : PatternSet := {}
  ignoredCommands : PatternSet := {}
  ignoredPaths : PatternSet := {}

/-- The values of each set as they were given. -/
structure CriteriaValues where
  workloads : List String := []
  sources : List String := []
  destinations : List String := []
  ignoredCommands : List String := []
  ignoredPaths : List String := []
  deriving DecidableEq, Repr

namespace Criteria

def ofValues (v : CriteriaValues) : Except PatternError Criteria := do
  let workloads ← PatternSet.ofValues v.workloads
  let sources ← PatternSet.ofValues v.sources
  let destinations ← PatternSet.ofValues v.destinations
  let ignoredCommands ← PatternSet.ofValues v.ignoredCommands
  let ignoredPaths ← PatternSet.ofValues v.ignoredPaths
  return { workloads, sources, destinations, ignoredCommands, ignoredPaths }

def isEmpty (c : Criteria) : Bool :=
  !(c.workloads.isConfigured || c.sources.isConfigured || c.destinations.isConfigured ||
    c.ignoredCommands.isConfigured || c.ignoredPaths.isConfigured)

/-- Whether an admitting set turns a value down; an empty value is not looked at. -/
def turnsDown (s : PatternSet) (value : String) : Bool :=
  s.isConfigured && value ≠ "" && !s.admits value

/-- Whether an excluding set has a value. -/
def excludes (s : PatternSet) (value : String) : Bool := s.isConfigured && value ≠ "" && s.admits value

def rejectsFile (c : Criteria) (e : FileEvent) : Bool :=
  turnsDown c.sources e.source || turnsDown c.destinations e.destination ||
    excludes c.ignoredPaths e.source || excludes c.ignoredPaths e.destination

def rejectsNetwork (c : Criteria) (e : NetworkEvent) : Bool := excludes c.ignoredCommands e.command

/-- Whether some set is against a leaf. A leaf of no resource counts as one with an empty name. -/
def rejects (c : Criteria) (n : Node) : Bool :=
  (c.workloads.isConfigured && !c.workloads.admits (ChangePath.workload n.path)) ||
    (n.file.map c.rejectsFile).getD false || (n.network.map c.rejectsNetwork).getD false

end Criteria

/-- Cancels the leaves under a root that some criterion rejects, and counts those that were not
canceled before. -/
def ChangeGraph.applyCriteria (g : ChangeGraph) (root : String) (c : Criteria) : ChangeGraph × Nat :=
  if c.isEmpty then (g, 0)
  else
    let rejected := (g.leaves root).filter c.rejects
    let hashes := rejected.map (·.hash)
    (g.cancel (· ∈ hashes), (rejected.filter fun n => !n.change.canceled).length)

end WorkloadDrift
