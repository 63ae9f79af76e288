import WorkloadDrift.Proofs.Comparison.Origin
import WorkloadDrift.Proofs.Report.Leaves

/-!
# What a report counts

The leaves are counted before they are canceled and listed after, and either step
counts what it cancels. No step changes which leaves there are, and groups by
parents lose none, so the numbers of a report are the lengths of its lists.
-/
namespace WorkloadDrift

/-! ## Groups -/

theorem perm_addToGroup {α : Type} (key : String) (value : α) (groups : List (String × List α)) :
    ((addToGroup key value groups).flatMap (·.2)).Perm (value :: groups.flatMap (·.2)) := by
  induction groups with
  | nil => rfl
  | cons group groups ih =>
    unfold addToGroup
    split
    · simp only [List.flatMap_cons, List.append_assoc, List.singleton_append]
      exact List.perm_middle
    · simp only [List.flatMap_cons]
      exact (ih.append_left group.2).trans List.perm_middle

/-- Grouping by parents keeps every leaf. -/
theorem perm_leavesByParent (nodes : List Node) :
    ((leavesByParent nodes).flatMap (·.2)).Perm (nodes.filter Node.isLeaf) := by
  have hfold (leaves : List Node) (groups : List (String × List Node)) :
      ((leaves.foldl (fun groups n => addToGroup n.parentHash n groups) groups).flatMap (·.2)).Perm
        (groups.flatMap (·.2) ++ leaves) := by
    induction leaves generalizing groups with
    | nil => simp
    | cons n leaves ih =>
      have hadd := (perm_addToGroup n.parentHash n groups).append_right leaves
      exact ((ih _).trans hadd).trans List.perm_middle.symm
  simpa [leavesByParent] using hfold (nodes.filter Node.isLeaf) []

/-! ## Entries -/

/-- A member's value, null for what is no object or lacks the member. -/
def Json.member (name : String) : Json → Json
  | .obj members => Members.value members name
  | _ => .null

def Json.isFalse : Json → Bool
  | .bool b => !b
  | _ => false

/-- Whether an entry of a report shows that its change is not canceled. -/
def Json.showsActive (entry : Json) : Bool := ((entry.member "changetype").member "canceled").isFalse

theorem member_level_render (g : ChangeGraph) (n : Node) :
    (g.render n).member "level" = .int n.level := rfl

theorem showsActive_render (g : ChangeGraph) (n : Node) :
    (g.render n).showsActive = !n.change.canceled := rfl

namespace Report

theorem perm_leafGroups (r : Report) : (r.leafGroups.flatMap (·.2)).Perm r.leaves :=
  perm_leavesByParent _

theorem perm_entries (r : Report) (includeCanceled : Bool) :
    (r.entries includeCanceled).Perm
      (r.leaves.filter fun n => includeCanceled || !n.change.canceled) :=
  r.perm_leafGroups.filter _

variable (digest : Digest) (latest baseline : Workload) (criteria : Option Criteria)

/-- The leaves that are canceled at the end are those that the two steps say they canceled. -/
theorem canceled_build_eq_add :
    let netting := (difference digest latest baseline).cancelMoved (latest.contentHash digest)
    (build digest latest baseline criteria).canceled = netting.2 +
      (criteria.map fun c => (netting.1.applyCriteria (latest.contentHash digest) c).2).getD 0 := by
  intro netting
  set root := latest.contentHash digest with hroot
  have hstart : ((difference digest latest baseline).leaves root).countP (·.change.canceled) = 0 := by
    apply List.countP_eq_zero.2
    intro n hn
    have hmem : n ∈ (difference digest latest baseline).nodes :=
      mem_of_mem_visit (List.mem_of_mem_filter hn)
    simp [(found_difference digest latest baseline n hmem).active]
  have hnetting : (netting.1.leaves root).countP (·.change.canceled) = netting.2 := by
    have h := (Pass.netting root).countP_canceled_run (difference digest latest baseline)
    exact h.trans (by rw [Pass.root, hstart, Nat.zero_add]; rfl)
  rw [canceled_build, leaves, graph_build, rootHash_build, ← hroot]
  cases criteria with
  | none => exact hnetting
  | some c =>
    have hfiltering := (Pass.filtering root c).countP_canceled_run netting.1
    rw [Pass.root, hnetting] at hfiltering
    exact hfiltering

end Report

/-- The numbers of a report are the lengths of the lists that it prints, with canceled entries and
without: the shorter list is what of the longer one shows no cancellation. What it says is canceled
its two steps canceled, either step counting its own. The leaves that links lead to from the root are
the ones that it groups, each of them once. -/
theorem report_numbers (digest : Digest) (latest baseline : Workload) (criteria : Option Criteria) :
    let r := Report.build digest latest baseline criteria
    let netting := (difference digest latest baseline).cancelMoved (latest.contentHash digest)
    let filtering := criteria.map (netting.1.applyCriteria (latest.contentHash digest))
    ∃ all : List Json,
      r.toJson true = .arr all ∧ r.toJson false = .arr (all.filter Json.showsActive) ∧
      r.total = all.length ∧ r.active = (all.filter Json.showsActive).length ∧
      r.canceled = netting.2 + (filtering.map (·.2)).getD 0 ∧
      (r.hasDrift = true ↔ all.filter Json.showsActive ≠ []) ∧
      (∀ entry ∈ all, entry.member "level" = .int leafLevel) ∧
      (∀ n, n ∈ r.leafGroups.flatMap (·.2) ↔ Reached r.graph.nodes [r.rootHash] n ∧ n.isLeaf) ∧
      ((r.leafGroups.flatMap (·.2)).map (·.hash)).Nodup := by
  intro r netting filtering
  have hall : (r.entries true).Perm r.leaves := by simpa using r.perm_entries true
  have hactive : ((r.entries true).map r.graph.render).filter Json.showsActive =
      (r.entries false).map r.graph.render := by
    rw [List.filter_map]
    simp [Report.entries, Function.comp_def, showsActive_render]
  have hlength : r.active = (r.entries false).length := by
    rw [Report.active_build, List.countP_eq_length_filter]
    simpa using (r.perm_entries false).length_eq.symm
  refine ⟨(r.entries true).map r.graph.render, rfl, by rw [hactive]; rfl, ?_, ?_, ?_, ?_, ?_, ?_, ?_⟩
  · rw [List.length_map, hall.length_eq]
    exact Report.total_build digest latest baseline criteria
  · rw [hactive, List.length_map, hlength]
  · simpa [filtering, Function.comp_def] using
      Report.canceled_build_eq_add digest latest baseline criteria
  · rw [Report.hasDrift, decide_eq_true_iff, hlength, hactive, List.length_pos_iff, ne_eq, ne_eq,
      List.map_eq_nil_iff]
  · rw [List.forall_mem_map]
    intro n hn
    have hleaf : n.isLeaf := (List.mem_filter.1 (hall.mem_iff.1 hn)).2
    rw [member_level_render, of_decide_eq_true hleaf]
  · exact fun n => r.perm_leafGroups.mem_iff.trans ChangeGraph.mem_leaves_iff
  · exact (r.perm_leafGroups.map _).nodup_iff.2 (r.graph.nodup_leaves r.rootHash)

end WorkloadDrift
