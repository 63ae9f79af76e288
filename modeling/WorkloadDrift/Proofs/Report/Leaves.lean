import WorkloadDrift.Report
import WorkloadDrift.Proofs.Cancellation
import WorkloadDrift.Proofs.Change.Passes
import WorkloadDrift.Proofs.Comparison.Edits
import WorkloadDrift.Proofs.Comparison.Enumeration

/-!
# The leaves of a report

A report counts its leaves, and those that are not canceled are its drift. Without
criteria it has a leaf for each edit of the resources that both snapshots have.
-/
namespace WorkloadDrift

theorem mem_present {v w : String} (hv : v ≠ "") : v ∈ present w ↔ w = v := by
  unfold present
  split
  · next hw => simpa [hw] using Ne.symm hv
  · simp [eq_comm]

namespace Report

def leaves (r : Report) : List Node := r.graph.leaves r.rootHash

/-- The leaves that are not canceled. -/
def activeLeaves (r : Report) : List Node := r.leaves.filter fun n => !n.change.canceled

/-- The steps that make a report out of a comparison. -/
def passes (root : String) (criteria : Option Criteria) : List Pass :=
  .netting root :: (criteria.map (Pass.filtering root)).toList

section Build

variable (digest : Digest) (latest baseline : Workload) (criteria : Option Criteria)

theorem graph_build : (build digest latest baseline criteria).graph =
    Pass.runAll (passes (latest.contentHash digest) criteria) (difference digest latest baseline) := by
  cases criteria <;> rfl

theorem rootHash_build :
    (build digest latest baseline criteria).rootHash = latest.contentHash digest := by
  cases criteria <;> rfl

theorem total_build : (build digest latest baseline criteria).total =
    (build digest latest baseline criteria).leaves.length := by
  have htotal : (build digest latest baseline criteria).total =
      ((difference digest latest baseline).leaves (latest.contentHash digest)).length := by
    cases criteria <;> rfl
  rw [htotal, leaves, graph_build, rootHash_build, Pass.runAll_eq, ChangeGraph.leaves_cancel,
    List.length_map]

theorem canceled_build : (build digest latest baseline criteria).canceled =
    (build digest latest baseline criteria).leaves.countP (·.change.canceled) := by
  rw [List.countP_eq_length_filter]
  cases criteria <;> rfl

theorem active_build : (build digest latest baseline criteria).active =
    (build digest latest baseline criteria).leaves.countP fun n => !n.change.canceled := by
  have hsplit := List.length_eq_countP_add_countP (fun n : Node => n.change.canceled)
    (l := (build digest latest baseline criteria).leaves)
  simp only [Bool.not_eq_true, Bool.decide_eq_false] at hsplit
  rw [active, total_build, canceled_build]
  omega

variable {digest latest baseline criteria} in
theorem hasDrift_build : (build digest latest baseline criteria).hasDrift = false ↔
    (build digest latest baseline criteria).activeLeaves = [] := by
  rw [hasDrift, active_build, List.countP_eq_length_filter, decide_eq_false_iff_not, Nat.not_lt,
    Nat.le_zero, List.length_eq_zero_iff]
  rfl

end Build

/-- Leaves that show edits in turn: each brings the new value of its edit and takes the old one. -/
def Shows (leaves : List Node) (edits : List FieldEdit) : Prop :=
  leaves.map (fun n => (n.change.insert, n.change.remove)) =
    edits.map fun e => (present e.new, present e.old)

namespace Shows

variable {leaves : List Node} {edits : List FieldEdit}

theorem flatMap_insert (h : Shows leaves edits) :
    leaves.flatMap (·.change.insert) = edits.flatMap fun e => present e.new := by
  have hfirst := congrArg (List.flatMap Prod.fst) h
  rwa [List.flatMap_map, List.flatMap_map] at hfirst

theorem flatMap_remove (h : Shows leaves edits) :
    leaves.flatMap (·.change.remove) = edits.flatMap fun e => present e.old := by
  have hsecond := congrArg (List.flatMap Prod.snd) h
  rwa [List.flatMap_map, List.flatMap_map] at hsecond

theorem exists_edit (h : Shows leaves edits) {n : Node} (hn : n ∈ leaves) :
    ∃ e ∈ edits, n.change.insert = present e.new ∧ n.change.remove = present e.old := by
  have hmem := List.mem_map_of_mem (f := fun n : Node => (n.change.insert, n.change.remove)) hn
  rw [h] at hmem
  obtain ⟨e, he, heq⟩ := List.mem_map.1 hmem
  obtain ⟨hinsert, hremove⟩ := Prod.mk.inj heq
  exact ⟨e, he, hinsert.symm, hremove.symm⟩

theorem countP_insert (h : Shows leaves edits) {v : String} (hv : v ≠ "") :
    leaves.countP (v ∈ ·.change.insert) = (edits.map (·.new)).count v := by
  have hfirst := congrArg (List.countP fun c => decide (v ∈ c.1)) h
  simp only [List.countP_map, Function.comp_def, mem_present hv] at hfirst
  simp only [List.count, List.countP_map, Function.comp_def, hfirst]
  rfl

theorem countP_remove (h : Shows leaves edits) {v : String} (hv : v ≠ "") :
    leaves.countP (v ∈ ·.change.remove) = (edits.map (·.old)).count v := by
  have hsecond := congrArg (List.countP fun c => decide (v ∈ c.2)) h
  simp only [List.countP_map, Function.comp_def, mem_present hv] at hsecond
  simp only [List.count, List.countP_map, Function.comp_def, hsecond]
  rfl

end Shows

variable {digest : Digest} {latest baseline : Workload}

/-- The leaves as the comparison found them. -/
def found (digest : Digest) (latest baseline : Workload) : List Node :=
  (difference digest latest baseline).leaves (latest.contentHash digest)

theorem leaves_build : (build digest latest baseline none).leaves =
    (found digest latest baseline).map fun n =>
      if n.hash ∈ Cancellation.matched (found digest latest baseline) then n.cancel else n := by
  have hcancel := ChangeGraph.leaves_cancel (difference digest latest baseline)
    (· ∈ Cancellation.matched (found digest latest baseline)) (latest.contentHash digest)
  exact hcancel.trans (List.map_congr_left fun n _ => by simp [Node.cancelIf])

/-- What is left over are the leaves that do not cancel. -/
theorem activeLeaves_build (hfresh : ∀ n ∈ found digest latest baseline, n.change.canceled = false) :
    (build digest latest baseline none).activeLeaves =
      (found digest latest baseline).filter fun n =>
        n.hash ∉ Cancellation.matched (found digest latest baseline) := by
  simp only [decide_not]
  exact ChangeGraph.active_leaves_cancel _ hfresh

end Report

theorem Forest.map_fst_preorder {α : Type} (f : Forest α) : f.preorder.map (·.1) = f.entries := by
  induction f with
  | nil => rfl
  | cons a below rest ihBelow ihRest => simp [preorder, entries, ihBelow, ihRest]

theorem Drift.level_ne_leafLevel {d : Drift} (h : d.field? = none) : d.finding.level ≠ leafLevel := by
  cases d with
  | root w => exact (by decide : (0 : Int) ≠ leafLevel)
  | part p => cases hp : p.part <;> simp [finding, hp, PartKind.level, leafLevel]
  | field f => simp [field?] at h

theorem Drift.eq_field {d : Drift} {f : FieldDrift} (h : d.field? = some f) : d = .field f := by
  cases d <;> simp_all [field?]

/-- The differences at the leaf level are those of fields. -/
theorem Drift.filter_map_finding (l : List Drift) :
    ((l.map finding).filter fun f => f.level = leafLevel) =
      (l.filterMap field?).map FieldDrift.finding := by
  induction l with
  | nil => rfl
  | cons d l ih =>
    cases h : d.field? with
    | none => simpa [h, level_ne_leafLevel h] using ih
    | some f =>
      have hlevel : d.finding.level = leafLevel := by rw [eq_field h]; rfl
      rw [List.map_cons, List.filter_cons_of_pos (by simpa using hlevel), ih,
        List.filterMap_cons_some h, List.map_cons, eq_field h]
      rfl

theorem Drift.canceled_eq_false (d : Drift) : d.finding.change.canceled = false := by
  cases d with
  | root w => rfl
  | part p => cases h : p.how <;> simp [finding, h, PartChange.change]
  | field f => rfl

section Outline

variable {digest : Digest} {latest baseline : Workload} (hex : digest.Hexadecimal)
  (distinct : ((latest.outline baseline).texts digest).Nodup)
  (separates : digest.Separates (latest.digested digest baseline))

include hex distinct separates

/-- The nodes of a comparison tell the differences of the outline. -/
theorem map_finding_difference : (difference digest latest baseline).nodes.map Node.finding =
    (latest.outline baseline).entries.map Drift.finding := by
  have hfirst := congrArg (List.map (·.1)) (difference_preorder hex distinct separates).2
  rw [List.map_map, List.map_map] at hfirst
  rw [← Forest.map_fst_preorder, List.map_map]
  exact hfirst

theorem found_eq_filter : Report.found digest latest baseline =
    (difference digest latest baseline).nodes.filter Node.isLeaf := by
  rw [Report.found, ChangeGraph.leaves, (difference_preorder hex distinct separates).1]

/-- The leaves tell the differences of fields. -/
theorem map_finding_found : (Report.found digest latest baseline).map Node.finding =
    (latest.outline baseline).fields.map FieldDrift.finding := by
  rw [Forest.fields, ← Drift.filter_map_finding, ← map_finding_difference hex distinct separates,
    List.filter_map, found_eq_filter hex distinct separates]
  rfl

/-- The leaves that the comparison finds have hashes of their own and are not canceled, and each
shows one edit. -/
theorem found_spec : ((Report.found digest latest baseline).map (·.hash)).Nodup ∧
    (∀ n ∈ Report.found digest latest baseline, n.change.canceled = false) ∧
    Report.Shows (Report.found digest latest baseline) (latest.edits baseline) := by
  refine ⟨ChangeGraph.nodup_leaves _ _, ?_, ?_⟩
  · intro n hn
    have hmem : n.finding ∈ (latest.outline baseline).entries.map Drift.finding := by
      rw [found_eq_filter hex distinct separates] at hn
      rw [← map_finding_difference hex distinct separates]
      exact List.mem_map_of_mem (List.mem_of_mem_filter hn)
    obtain ⟨d, -, hd⟩ := List.mem_map.1 hmem
    rw [show n.change.canceled = n.finding.change.canceled from rfl, ← hd]
    exact d.canceled_eq_false
  · have hchanges := congrArg (List.map fun f => (f.change.insert, f.change.remove))
      (map_finding_found hex distinct separates)
    rw [List.map_map, List.map_map] at hchanges
    rw [Report.Shows, ← Workload.edits_outline, ← Forest.map_edit_fields, List.map_map]
    exact hchanges

end Outline
/-- The leaf of a deployment that accesses `x` in place of `y`, up to its hash. -/
def Node.accessing : Node where
  type := .fileEvent
  hash := ""
  path := "workload/cluster/c/namespace/n/resource-type/deployment/resource-name/d/events/file/source"
  level := leafLevel
  file := some (.copying "x" "")
  change := { insert := ["x"], remove := ["y"], field := "source", category := "file" }

/-- The comparison finds that leaf only, and its values did not move. -/
theorem Report.found_accessing :
    ∃ n, found .spelled (.running (.accessing [some (.copying "x" "")]))
        (.running (.accessing [some (.copying "y" "")])) = [n] ∧
      n.finding = Node.accessing.finding ∧ Cancellation.matched [n] = [] := by
  have distinct : (((Workload.running (.accessing [some (.copying "x" "")])).outline
      (.running (.accessing [some (.copying "y" "")]))).texts Digest.spelled).Nodup :=
    Workload.nodup_texts Digest.hexadecimal_spelled (by decide) (by decide)
  have hfindings := map_finding_found Digest.hexadecimal_spelled distinct (Digest.separates_spelled _)
  have hfields : ((Workload.running (.accessing [some (.copying "x" "")])).outline
      (.running (.accessing [some (.copying "y" "")]))).fields.map FieldDrift.finding =
        [Node.accessing.finding] := by
    decide +kernel
  rw [hfields] at hfindings
  obtain ⟨n, hfound, hfinding⟩ := List.map_eq_singleton_iff.1 hfindings
  have hchange : n.change = Node.accessing.change := congrArg Finding.change hfinding
  exact ⟨n, hfound, hfinding,
    Cancellation.matched_singleton (by rw [hchange]; rfl) (by rw [hchange]; decide)⟩

end WorkloadDrift
