import WorkloadDrift.Proofs.Cancellation
import WorkloadDrift.Proofs.Change.Passes

/-!
# What netting does to a graph

Dropping unbacked candidates round by round ends at the greatest class of leaves
that can cancel together, whatever the links of the graph and whatever is
canceled already. Those leaves and no other nodes are canceled.
-/
namespace WorkloadDrift
namespace Cancellation

/-- The last leaf of a class: none behind it is in the class. -/
def IsLast (leaves : List Node) (p : Node → Prop) (n : Node) : Prop :=
  p n ∧ ∃ before after, leaves = before ++ n :: after ∧ ∀ m ∈ after, ¬ p m

variable {leaves : List Node} {n : Node} {v : String}

theorem find?_reverse_eq_some_iff {p : Node → Prop} [DecidablePred p] :
    (leaves.reverse.find? fun m => p m) = some n ↔ IsLast leaves p n := by
  rw [List.find?_eq_some_iff_append, IsLast, decide_eq_true_iff]
  apply and_congr_right
  intro _
  constructor
  · rintro ⟨behind, front, hsplit, hbehind⟩
    refine ⟨front.reverse, behind.reverse, ?_, by simpa using hbehind⟩
    simpa using congrArg List.reverse hsplit
  · rintro ⟨before, after, rfl, hafter⟩
    exact ⟨after.reverse, before.reverse, by simp, by simpa using hafter⟩

theorem lastInserting?_eq_some_iff :
    lastInserting? leaves v = some n ↔ IsLast leaves (v ∈ ·.change.insert) n :=
  find?_reverse_eq_some_iff

theorem lastRemoving?_eq_some_iff :
    lastRemoving? leaves v = some n ↔ IsLast leaves (v ∈ ·.change.remove) n :=
  find?_reverse_eq_some_iff

/-- Only hashes of leaves are matched. -/
theorem exists_leaf_of_mem_matched {h : String} (hh : h ∈ matched leaves) :
    ∃ m ∈ leaves, m.hash = h := by
  obtain ⟨c, hc, rfl⟩ := List.mem_map.1 hh
  obtain ⟨m, hm, hcandidate⟩ := List.mem_filterMap.1 (mem_of_mem_settle c hc)
  obtain ⟨partners, -, rfl⟩ := Option.map_eq_some_iff.1 hcandidate
  exact ⟨m, hm, rfl⟩

end Cancellation

open Cancellation

namespace ChangeGraph

variable {g : ChangeGraph} {root : String} {n : Node}

theorem mem_nodes_of_mem_leaves (hn : n ∈ g.leaves root) : n ∈ g.nodes :=
  mem_of_mem_visit (List.mem_of_mem_filter hn)

/-- A stored node is canceled by netting exactly if it is one of the leaves that cancel. -/
theorem hash_mem_matched_iff (hn : n ∈ g.nodes) :
    n.hash ∈ matched (g.leaves root) ↔ n ∈ canceling (g.leaves root) := by
  constructor
  · intro hmatched
    obtain ⟨m, hm, hhash⟩ := exists_leaf_of_mem_matched hmatched
    obtain rfl : m = n := List.inj_on_of_nodup_map g.distinct (mem_nodes_of_mem_leaves hm) hn hhash
    exact mem_canceling.2 ⟨hm, hmatched⟩
  · intro hcanceling
    exact (mem_canceling.1 hcanceling).2

variable (g root)

theorem nodes_cancelMoved : (g.cancelMoved root).1.nodes =
    g.nodes.map fun n => if n ∈ canceling (g.leaves root) then n.cancel else n := by
  apply List.map_congr_left
  intro n hn
  simp only [decide_eq_true_iff, hash_mem_matched_iff hn]

theorem count_cancelMoved : (g.cancelMoved root).2 =
    (canceling (g.leaves root)).countP fun n => !n.change.canceled := by
  rw [List.countP_eq_length_filter, canceling, List.filter_filter]
  simp only [Bool.and_comm (!_)]
  rfl

/-- Netting cancels the greatest class of leaves that can cancel together, and no other node; it
counts those of the class that were not canceled before. Every value of a leaf has a last leaf on
its side, so that no look-up of it fails. -/
theorem cancelMoved_greatest :
    let leaves := g.leaves root
    let moved := canceling leaves
    (Closed leaves (· ∈ moved) ∧ ∀ S, Closed leaves S → ∀ n, S n → n ∈ moved) ∧
    (∀ v n, (lastInserting? leaves v = some n ↔ IsLast leaves (v ∈ ·.change.insert) n) ∧
      (lastRemoving? leaves v = some n ↔ IsLast leaves (v ∈ ·.change.remove) n)) ∧
    (∀ n ∈ leaves, (∀ v ∈ n.change.insert, (lastInserting? leaves v).isSome) ∧
      ∀ v ∈ n.change.remove, (lastRemoving? leaves v).isSome) ∧
    (∀ h ∈ matched leaves, ∃ n ∈ leaves, n.hash = h) ∧
    (g.cancelMoved root).1.nodes = g.nodes.map (fun n => if n ∈ moved then n.cancel else n) ∧
    (g.cancelMoved root).1.rootHash = g.rootHash ∧
    (g.cancelMoved root).2 = moved.countP fun n => !n.change.canceled := by
  intro leaves moved
  have hgreatest : ∀ S, Closed leaves S → ∀ n, S n → n ∈ moved := fun S hS n hn =>
    hS.mem_canceling hn
  have hlookup : ∀ n ∈ leaves, (∀ v ∈ n.change.insert, (lastInserting? leaves v).isSome) ∧
      ∀ v ∈ n.change.remove, (lastRemoving? leaves v).isSome := by
    intro n hn
    constructor
    · intro v hv
      exact Option.isSome_iff_exists.2 (exists_lastInserting? hn hv)
    · intro v hv
      exact Option.isSome_iff_exists.2 (exists_lastRemoving? hn hv)
  exact ⟨⟨closed_canceling (g.nodup_leaves root), hgreatest⟩,
    fun _ _ => ⟨lastInserting?_eq_some_iff, lastRemoving?_eq_some_iff⟩, hlookup,
    fun _ => exists_leaf_of_mem_matched, g.nodes_cancelMoved root, rfl, g.count_cancelMoved root⟩

end ChangeGraph
end WorkloadDrift
