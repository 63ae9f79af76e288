import WorkloadDrift.Comparison
import WorkloadDrift.Cancellation
import WorkloadDrift.Criteria

/-!
# Drift reports

The changes between two snapshots, with moved values canceled first and the
criteria applied after.
-/
namespace WorkloadDrift

/-- `deltas` are the changes as they were found and `compared` counts the nodes that they became.
`total` counts the leaves and `canceled` those that are canceled at the end, `moved` and `filtered`
the ones that each step canceled. Without criteria there is no second step. -/
structure Report where
  graph : ChangeGraph
  rootHash : String
  deltas : List Delta
  compared : Nat
  total : Nat
  moved : Nat
  filtered : Option Nat
  canceled : Nat

namespace Report

def build (digest : Digest) (latest baseline : Workload) (criteria : Option Criteria) : Report :=
  let root := latest.contentHash digest
  let deltas := Comparison.deltas digest latest baseline
  let compared := ChangeGraph.ofDeltas deltas
  let (netted, moved) := compared.cancelMoved root
  let (graph, filtered) := match criteria with
    | none => (netted, none)
    | some c =>
      let (g, count) := netted.applyCriteria root c
      (g, some count)
  { graph, rootHash := root, deltas, compared := compared.size, moved, filtered
    total := (compared.leaves root).length
    canceled := ((graph.leaves root).filter (·.change.canceled)).length }

def active (r : Report) : Nat := r.total - r.canceled

def hasDrift (r : Report) : Bool := 0 < r.active

def leafGroups (r : Report) : List (String × List Node) := r.graph.leafGroups r.rootHash

/-- The leaves of the report, grouped by their parents. -/
def entries (r : Report) (includeCanceled : Bool) : List Node :=
  (r.leafGroups.flatMap (·.2)).filter fun n => includeCanceled || !n.change.canceled

def toJson (r : Report) (includeCanceled : Bool) : Json :=
  .arr ((r.entries includeCanceled).map r.graph.render)

end Report
end WorkloadDrift
