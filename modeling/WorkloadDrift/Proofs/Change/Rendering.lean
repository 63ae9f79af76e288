import WorkloadDrift.Proofs.Change.Search

/-!
# Rendered trees

A rendered node lists its children as rendered nodes of their own, each where it comes up
first. Read in preorder, a rendered tree shows the nodes that a walk meets, in the order in
which it meets them.
-/
namespace WorkloadDrift

/-! ## Reading a rendered tree -/

namespace Json

mutual

/-- A rendered tree in preorder, each entry before those that it lists as its children. -/
def preorder : Json → List Json
  | obj members => obj members :: preorderBelow members
  | v => [v]

def preorderBelow : List (String × Json) → List Json
  | [] => []
  | (name, v) :: members => if name = "children" then preorderListed v else preorderBelow members

def preorderListed : Json → List Json
  | arr entries => preorderAll entries
  | _ => []

def preorderAll : List Json → List Json
  | [] => []
  | v :: entries => v.preorder ++ preorderAll entries

end

/-- Whether an entry shows a node, with whatever below it. -/
def Shows (entry : Json) (n : Node) : Prop := ∃ below : Json, entry = .obj [
  ("type", .str n.type.name),
  ("path", .str n.path),
  ("level", .int n.level),
  ("parent", .str n.parentHash),
  ("networkdata", (n.network.map NetworkEvent.toJson).getD .null),
  ("fileprocessdata", (n.file.map FileEvent.toJson).getD .null),
  ("changetype", n.change.toJson),
  ("children", below)]

end Json

namespace ChangeTree

theorem preorder_toJson (root : Node) (children : List ChangeTree) :
    (node root children).toJson.preorder =
      (node root children).toJson :: Json.preorderAll (listToJson children) := by
  rw [toJson, Json.preorder]
  cases children with
  | nil => simp [Json.preorderBelow, Json.preorderListed, listToJson, Json.preorderAll]
  | cons t ts => simp [Json.preorderBelow, Json.preorderListed]

mutual

theorem shows_preorder : (t : ChangeTree) → List.Forall₂ Json.Shows t.toJson.preorder t.preorder
  | .node root children => by
    rw [preorder_toJson, preorder]
    exact .cons ⟨_, by rw [toJson]⟩ (shows_preorderAll children)

theorem shows_preorderAll : (ts : List ChangeTree) →
    List.Forall₂ Json.Shows (Json.preorderAll (listToJson ts)) (preorderAll ts)
  | [] => .nil
  | t :: ts => List.rel_append (shows_preorder t) (shows_preorderAll ts)

end

end ChangeTree

/-! ## Trees and walks -/

namespace ChangeGraph

variable {g : ChangeGraph} {n : Node}

/-- Trees that grow out of the unmarked nodes hold what the recursion meets, and leave of the stock
what it leaves unmarked. -/
theorem grow_unmarked (seen : Finset String) (hashes : List String) :
    ChangeTree.preorderAll (grow (g.unmarked seen) hashes).1 = (g.descend seen hashes).1 ∧
      (grow (g.unmarked seen) hashes).2.1 = g.unmarked (g.descend seen hashes).2 := by
  induction seen, hashes using descend_induction (g := g) with
  | nil seen => simp [grow, descend, ChangeTree.preorderAll]
  | skipped seen h hashes hskip ih =>
    rwa [grow_of_missing (find?_unmarked_of_skipped hskip), descend_of_skipped hskip]
  | met seen h hashes n hseen hfound ihBelow ihAfter =>
    obtain ⟨hnodes, hmarks⟩ := descend_of_found hseen hfound hashes
    obtain ⟨htrees, hleft⟩ :=
      @grow_of_found _ _ hashes n ((find?_unmarked_of_notMem hseen).trans hfound)
    rw [← unmarked_insert, ihBelow.2] at htrees hleft
    constructor
    · rw [htrees, hnodes, ChangeTree.preorderAll, ChangeTree.preorder, ihBelow.1, ihAfter.1]
      rfl
    · rw [hleft, hmarks, ihAfter.2]

theorem get?_hash (hn : n ∈ g.nodes) : g.get? n.hash = some n := by
  have hsome : (g.get? n.hash).isSome := by
    rw [get?, List.find?_isSome]
    exact ⟨n, hn, by simp⟩
  obtain ⟨m, hm⟩ := Option.isSome_iff_exists.1 hsome
  have hhash : m.hash = n.hash := by simpa using List.find?_some hm
  rw [hm, List.inj_on_of_nodup_map g.distinct (List.mem_of_find?_eq_some hm) hn hhash]

theorem preorder_tree (hn : n ∈ g.nodes) : (g.tree n).preorder = g.depthFirst n.hash := by
  have hstock : without n.hash g.nodes = g.unmarked (insert n.hash ∅) := by
    rw [unmarked_insert, unmarked_empty]
  have hvisit := visit_unmarked (g := g) (insert n.hash ∅) n.children []
  rw [visit_nil, List.append_nil, List.append_nil, ← (grow_unmarked _ _).1, ← hstock] at hvisit
  rw [depthFirst, visit_of_found (get?_hash hn), List.append_nil, hvisit]
  rfl

/-- Read in preorder, the rendering of a stored node shows the nodes that a walk from it meets, in the
same order. They are the stored nodes that links lead to from there, each of them once. -/
theorem render_preorder (hn : n ∈ g.nodes) :
    List.Forall₂ Json.Shows (g.render n).preorder (g.depthFirst n.hash) ∧
    (g.tree n).preorder = g.depthFirst n.hash ∧
    (∀ m, m ∈ (g.tree n).preorder ↔ Reached g.nodes [n.hash] m) ∧
    ((g.tree n).preorder.map (·.hash)).Nodup := by
  have htree := preorder_tree hn
  refine ⟨?_, htree, fun m => ?_, ?_⟩
  · rw [← htree]
    exact ChangeTree.shows_preorder (g.tree n)
  · rw [htree]
    exact mem_visit_iff g.distinct
  · rw [htree]
    exact nodup_visit _ _

/-- A node with links to itself, twice to one child, to another that links back, and to a hash that is
not stored. -/
def tangled : ChangeGraph where
  nodes := [
    { type := .workload, hash := "r", path := "workload", level := 0,
      children := ["r", "a", "missing", "b", "a"] },
    { type := .cluster, hash := "b", path := "workload/cluster/b", level := 1, children := ["r", "a"] },
    { type := .cluster, hash := "a", path := "workload/cluster/a", level := 1, children := ["b", "a"] },
    { type := .cluster, hash := "c", path := "workload/cluster/c", level := 1 }]
  rootHash := some "r"
  distinct := by decide

theorem render_preorder_tangled :
    let n := tangled.nodes.head (by decide)
    n ∈ tangled.nodes ∧ ((tangled.depthFirst "r").map (·.hash) = ["r", "a", "b"]) ∧
      List.Forall₂ Json.Shows (tangled.render n).preorder (tangled.depthFirst "r") := by
  intro n
  have hn : n ∈ tangled.nodes := List.head_mem _
  exact ⟨hn, by cbv, (render_preorder hn).1⟩

end ChangeGraph
end WorkloadDrift
