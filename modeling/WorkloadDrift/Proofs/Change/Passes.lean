import Mathlib
import WorkloadDrift.Cancellation
import WorkloadDrift.Criteria
import WorkloadDrift.Proofs.Change.Walk

/-!
# Passes over a change graph

A pass cancels leaves and changes nothing else, and whether it cancels a leaf does
not depend on what is canceled already. So passes may run in any order and any
number of times, and together they cancel what each of them would cancel alone.
-/
namespace WorkloadDrift

namespace Cancellation

section Map

variable {f : Node → Node} (hhash : ∀ n, (f n).hash = n.hash)
  (hinsert : ∀ n, (f n).change.insert = n.change.insert)
  (hremove : ∀ n, (f n).change.remove = n.change.remove) (leaves : List Node)

include hinsert in
theorem lastInserting?_map (v : String) :
    lastInserting? (leaves.map f) v = (lastInserting? leaves v).map f := by
  rw [lastInserting?, ← List.map_reverse, List.find?_map]
  simp only [lastInserting?, Function.comp_def, hinsert]

include hremove in
theorem lastRemoving?_map (v : String) :
    lastRemoving? (leaves.map f) v = (lastRemoving? leaves v).map f := by
  rw [lastRemoving?, ← List.map_reverse, List.find?_map]
  simp only [lastRemoving?, Function.comp_def, hremove]

include hhash in
theorem partner?_map (n : Node) (own other : Option Node) :
    partner? (f n) (own.map f) (other.map f) = partner? n own other := by
  simp [partner?, Option.map_map, Function.comp_def, hhash]

include hhash hinsert hremove in
/-- What cancels is told by the hashes and the values of the leaves. -/
theorem matched_map : matched (leaves.map f) = matched leaves := by
  have hpartners (n : Node) : partners? (leaves.map f) (f n) = partners? leaves n := by
    simp only [partners?, hinsert, hremove, lastInserting?_map hinsert, lastRemoving?_map hremove,
      partner?_map hhash]
  have hcandidates : candidates (leaves.map f) = candidates leaves := by
    simp only [candidates, List.filterMap_map, Function.comp_def, hpartners, hhash]
  rw [matched, matched, hcandidates]

end Map

theorem matched_cancelIf (p : String → Bool) (leaves : List Node) :
    matched (leaves.map (Node.cancelIf p)) = matched leaves := by
  apply matched_map (Node.hash_cancelIf p)
  · intro n
    rcases n.cancelIf_eq_or p with h | h <;> rw [h]
    rfl
  · intro n
    rcases n.cancelIf_eq_or p with h | h <;> rw [h]
    rfl

end Cancellation

/-- Criteria that are not configured reject nothing. -/
theorem Criteria.rejects_of_isEmpty {c : Criteria} (h : c.isEmpty) (n : Node) :
    c.rejects n = false := by
  simp only [isEmpty, Bool.not_eq_true', Bool.or_eq_false_iff] at h
  obtain ⟨⟨⟨⟨hworkloads, hsources⟩, hdestinations⟩, hcommands⟩, hpaths⟩ := h
  cases hfile : n.file <;> cases hnetwork : n.network <;>
    simp [rejects, rejectsFile, rejectsNetwork, turnsDown, excludes, *]

theorem Criteria.rejects_cancelIf (c : Criteria) (p : String → Bool) (n : Node) :
    c.rejects (n.cancelIf p) = c.rejects n := by
  rcases n.cancelIf_eq_or p with h | h <;> rw [h]
  rfl

namespace ChangeGraph

theorem ext {g g' : ChangeGraph} (hnodes : g.nodes = g'.nodes) (hroot : g.rootHash = g'.rootHash) :
    g = g' := by
  cases g
  cases g'
  simp_all

theorem cancel_cancel (g : ChangeGraph) (p q : String → Bool) :
    (g.cancel p).cancel q = g.cancel fun h => p h || q h := by
  refine ext ?_ rfl
  rw [nodes_cancel, nodes_cancel, nodes_cancel, List.map_map]
  apply List.map_congr_left
  intro n _
  cases hp : p n.hash <;> cases hq : q n.hash <;> simp [Node.cancelIf, Node.cancel, hp, hq]

theorem cancel_none (g : ChangeGraph) : (g.cancel fun _ => false) = g := by
  refine ext ?_ rfl
  rw [nodes_cancel]
  exact (List.map_congr_left fun n _ => by simp [Node.cancelIf]).trans (List.map_id _)

/-- The hashes of the canceled nodes. -/
def canceled (g : ChangeGraph) : List String := (g.nodes.filter (·.change.canceled)).map (·.hash)

theorem mem_canceled_cancel {g : ChangeGraph} {p : String → Bool} {h : String} :
    h ∈ (g.cancel p).canceled ↔ h ∈ g.canceled ∨ h ∈ g.nodes.map (·.hash) ∧ p h := by
  simp only [canceled, nodes_cancel, List.mem_map, List.mem_filter]
  constructor
  · rintro ⟨_, ⟨⟨n, hn, rfl⟩, hcanceled⟩, rfl⟩
    rw [Node.canceled_cancelIf, Bool.or_eq_true] at hcanceled
    rw [Node.hash_cancelIf]
    exact hcanceled.imp (fun h => ⟨n, ⟨hn, h⟩, rfl⟩) fun h => ⟨⟨n, hn, rfl⟩, h⟩
  · rintro (⟨n, ⟨hn, hcanceled⟩, rfl⟩ | ⟨⟨n, hn, rfl⟩, hp⟩)
    · exact ⟨n.cancelIf p, ⟨⟨n, hn, rfl⟩, by simp [hcanceled]⟩, by simp⟩
    · exact ⟨n.cancelIf p, ⟨⟨n, hn, rfl⟩, by simp [hp]⟩, by simp⟩

end ChangeGraph

/-- What annotates a graph: the cancellation of moved values, or criteria, under some root. -/
inductive Pass where
  | netting (root : String)
  | filtering (root : String) (criteria : Criteria)

namespace Pass

def root : Pass → String
  | netting root => root
  | filtering root _ => root

/-- The graph after a pass, and how many leaves the pass says it canceled. -/
def run (g : ChangeGraph) : Pass → ChangeGraph × Nat
  | netting root => g.cancelMoved root
  | filtering root c => g.applyCriteria root c

/-- The graph after one pass after another. -/
def runAll (passes : List Pass) (g : ChangeGraph) : ChangeGraph :=
  passes.foldl (fun g p => (p.run g).1) g

/-- The hashes of the leaves that a pass is against. -/
def targets (g : ChangeGraph) : Pass → List String
  | netting root => Cancellation.matched (g.leaves root)
  | filtering root c => if c.isEmpty then [] else ((g.leaves root).filter c.rejects).map (·.hash)

variable (g : ChangeGraph) (p : Pass)

theorem mem_targets_filtering {root : String} {c : Criteria} {h : String} :
    h ∈ (filtering root c).targets g ↔ ∃ n ∈ g.leaves root, c.rejects n ∧ n.hash = h := by
  by_cases hempty : c.isEmpty
  · simp [targets, hempty, Criteria.rejects_of_isEmpty hempty]
  · rw [show (filtering root c).targets g = _ from if_neg hempty]
    simp only [List.mem_map, List.mem_filter, and_assoc]

/-- A leaf has its hash for itself. -/
theorem hash_mem_targets_filtering {root : String} {c : Criteria} {n : Node}
    (hn : n ∈ g.leaves root) : n.hash ∈ (filtering root c).targets g ↔ c.rejects n := by
  rw [mem_targets_filtering]
  constructor
  · rintro ⟨m, hm, hrejects, heq⟩
    rwa [List.inj_on_of_nodup_map (g.nodup_leaves root) hm hn heq] at hrejects
  · exact fun hrejects => ⟨n, hn, hrejects, rfl⟩

/-- A pass cancels its targets, and counts those that were not canceled before. -/
theorem run_eq : p.run g = (g.cancel (· ∈ p.targets g),
    ((g.leaves p.root).filter fun n => n.hash ∈ p.targets g && !n.change.canceled).length) := by
  cases p with
  | netting root => rfl
  | filtering root c =>
    by_cases hempty : c.isEmpty
    · simp [run, targets, ChangeGraph.applyCriteria, hempty, ChangeGraph.cancel_none]
    · have hcount : ((g.leaves root).filter c.rejects).filter (fun n => !n.change.canceled) =
          (g.leaves root).filter fun n =>
            n.hash ∈ (filtering root c).targets g && !n.change.canceled := by
        rw [List.filter_filter]
        apply List.filter_congr
        intro n hn
        rw [Bool.eq_iff_iff, Bool.and_eq_true, Bool.and_eq_true, decide_eq_true_iff,
          hash_mem_targets_filtering g hn, and_comm]
      have hrun : (filtering root c).run g = (g.cancel (· ∈ (filtering root c).targets g),
          (((g.leaves root).filter c.rejects).filter fun n => !n.change.canceled).length) := by
        rw [show (filtering root c).targets g = _ from if_neg hempty]
        exact if_neg hempty
      rw [hrun, hcount]
      rfl

/-- A pass counts what it adds to the canceled leaves under its root. -/
theorem countP_canceled_run : ((p.run g).1.leaves p.root).countP (·.change.canceled) =
    (g.leaves p.root).countP (·.change.canceled) + (p.run g).2 := by
  rw [run_eq, ChangeGraph.leaves_cancel, List.countP_map]
  simp only [← List.countP_eq_length_filter]
  induction g.leaves p.root with
  | nil => rfl
  | cons n leaves ih =>
    simp only [List.countP_cons, Function.comp_apply, Node.canceled_cancelIf] at ih ⊢
    rw [ih]
    cases n.change.canceled <;> cases decide (n.hash ∈ p.targets g) <;> simp <;> omega

/-- What is canceled already does not matter to a pass. -/
theorem targets_cancel (q : String → Bool) : p.targets (g.cancel q) = p.targets g := by
  cases p with
  | netting root => rw [targets, targets, ChangeGraph.leaves_cancel, Cancellation.matched_cancelIf]
  | filtering root c =>
    have hrejects : c.rejects ∘ Node.cancelIf q = c.rejects := funext (c.rejects_cancelIf q)
    simp only [targets, ChangeGraph.leaves_cancel, List.filter_map, hrejects, List.map_map,
      Function.comp_def, Node.hash_cancelIf]

/-- One pass after another cancels the targets that each of them has in the first graph. -/
theorem runAll_eq (passes : List Pass) :
    runAll passes g = g.cancel fun h => passes.any fun p => h ∈ p.targets g := by
  induction passes generalizing g with
  | nil => exact g.cancel_none.symm
  | cons p passes ih =>
    have hstep : runAll (p :: passes) g = runAll passes (p.run g).1 := rfl
    rw [hstep, ih, run_eq]
    simp only [targets_cancel, ChangeGraph.cancel_cancel, List.any_cons]

theorem mem_canceled_run {h : String} : h ∈ (p.run g).1.canceled ↔
    h ∈ g.canceled ∨ h ∈ g.nodes.map (·.hash) ∧ h ∈ p.targets g := by
  rw [run_eq, ChangeGraph.mem_canceled_cancel, decide_eq_true_iff]

/-- After passes that include it a pass has nothing left to cancel. -/
theorem run_runAll {passes : List Pass} (hp : p ∈ passes) :
    p.run (runAll passes g) = (runAll passes g, 0) := by
  have hcovered : ∀ h ∈ p.targets g, passes.any fun q => h ∈ q.targets g := fun h hh =>
    List.any_eq_true.2 ⟨p, hp, decide_eq_true hh⟩
  rw [runAll_eq, run_eq, targets_cancel, ChangeGraph.cancel_cancel, ChangeGraph.leaves_cancel]
  congr 1
  · congr 1
    funext h
    by_cases hh : h ∈ p.targets g
    · simpa [hh] using hcovered h hh
    · simp [hh]
  · rw [List.length_eq_zero_iff, List.filter_eq_nil_iff, List.forall_mem_map]
    intro n _
    rw [Node.hash_cancelIf, Node.canceled_cancelIf]
    by_cases hh : n.hash ∈ p.targets g
    · simp only [hcovered n.hash hh, Bool.or_true, Bool.not_true, Bool.and_false]
      decide
    · simp [hh]

end Pass

/-- Any run of passes leaves every node in its place and changes nothing of it but its flag, which
is only ever set. A node ends up canceled if it was so before or some pass by itself would cancel it,
so neither order nor repetition of the passes matters, and a pass that was made has nothing left to
do. -/
theorem runAll_union (g : ChangeGraph) (passes : List Pass) :
    (∀ h, h ∈ (Pass.runAll passes g).canceled ↔
      h ∈ g.canceled ∨ ∃ p ∈ passes, h ∈ (p.run g).1.canceled) ∧
    (∀ passes', (∀ p, p ∈ passes' ↔ p ∈ passes) → Pass.runAll passes' g = Pass.runAll passes g) ∧
    (∀ p ∈ passes, p.run (Pass.runAll passes g) = (Pass.runAll passes g, 0)) ∧
    List.Forall₂ (fun n n' => n' = n ∨ n' = n.cancel) g.nodes (Pass.runAll passes g).nodes ∧
    (Pass.runAll passes g).rootHash = g.rootHash := by
  refine ⟨fun h => ?_, fun passes' hsame => ?_, fun p => p.run_runAll g, ?_, ?_⟩
  · rw [Pass.runAll_eq, ChangeGraph.mem_canceled_cancel, List.any_eq_true]
    simp only [Pass.mem_canceled_run, decide_eq_true_iff]
    constructor
    · rintro (hg | ⟨hnode, p, hp, htarget⟩)
      · exact .inl hg
      · exact .inr ⟨p, hp, .inr ⟨hnode, htarget⟩⟩
    · rintro (hg | ⟨p, hp, hg | ⟨hnode, htarget⟩⟩)
      · exact .inl hg
      · exact .inl hg
      · exact .inr ⟨hnode, p, hp, htarget⟩
  · rw [Pass.runAll_eq, Pass.runAll_eq]
    congr 1
    funext h
    rw [Bool.eq_iff_iff, List.any_eq_true, List.any_eq_true]
    simp only [hsame]
  · rw [Pass.runAll_eq, ChangeGraph.nodes_cancel, List.forall₂_map_right_iff, List.forall₂_same]
    exact fun n _ => n.cancelIf_eq_or _
  · rw [Pass.runAll_eq]
    rfl

/-- A root with three leaves: a value goes at one and comes at another, and a third one comes. -/
def ChangeGraph.moving : ChangeGraph where
  nodes := [
    { type := .workload, hash := "r", path := "workload", level := 0, children := ["a", "b", "c"] },
    { type := .fileEvent, hash := "a", path := "workload/source", level := 4, change := { remove := ["x"] } },
    { type := .fileEvent, hash := "b", path := "workload/source", level := 4, change := { insert := ["x"] } },
    { type := .fileEvent, hash := "c", path := "workload/source", level := 4,
      file := some ⟨"", ⟨"", ""⟩, "y", "", 0, 0⟩, change := { insert := ["y"] } }]
  rootHash := some "r"
  distinct := by decide

/-- One pass cancels the value that moved, the other one the third leaf, whichever comes first. -/
theorem runAll_union_moving :
    let netting : Pass := .netting "r"
    let filtering : Pass := .filtering "r" { ignoredPaths := { literals := ["y"] } }
    let g := Pass.runAll [netting, filtering] .moving
    ("a" ∈ g.canceled ∧ "b" ∈ g.canceled ∧ "c" ∈ g.canceled ∧ "r" ∉ g.canceled) ∧
      Pass.runAll [filtering, netting, filtering] .moving = g ∧ netting.run g = (g, 0) := by
  intro netting filtering g
  obtain ⟨hunion, hsame, hagain, -, -⟩ := runAll_union .moving [netting, filtering]
  have hnetting : (netting.run .moving).1.canceled = ["a", "b"] := by cbv
  have hfiltering : (filtering.run .moving).1.canceled = ["c"] := by cbv
  have hstart : ChangeGraph.moving.canceled = [] := rfl
  have hcanceled (h : String) : h ∈ g.canceled ↔ h = "a" ∨ h = "b" ∨ h = "c" := by
    rw [hunion h]
    simp [hstart, hnetting, hfiltering, or_assoc]
  refine ⟨by simp [hcanceled], hsame _ fun p => ?_, hagain netting (by simp)⟩
  simp only [List.mem_cons, List.not_mem_nil, or_false]
  tauto

end WorkloadDrift
