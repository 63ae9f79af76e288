import WorkloadDrift.Change.Graph

/-!
# Walking a change graph

Both walks carry the stock of stored nodes that they have not met yet. A node
leaves the stock when it is met, so a hash is followed only once, and a hash
that is not stored is never followed.
-/
namespace WorkloadDrift

def without (h : String) (stock : List Node) : List Node := stock.filter fun n => n.hash ≠ h

theorem length_without {h : String} {n : Node} {stock : List Node}
    (found : stock.find? (fun n => n.hash = h) = some n) :
    (without h stock).length < stock.length := by
  refine List.length_filter_lt_length_iff_exists.2 ⟨n, List.mem_of_find?_eq_some found, ?_⟩
  simpa using List.find?_some found

/-- The nodes met from a stack of hashes, in preorder. -/
def visit (stock : List Node) (stack : List String) : List Node :=
  match stack with
  | [] => []
  | h :: stack =>
    match _found : stock.find? (fun n => n.hash = h) with
    | none => visit stock stack
    | some n => n :: visit (without h stock) (n.children ++ stack)
termination_by (stock.length, stack.length)
decreasing_by
  · exact Prod.Lex.right _ (by simp)
  · exact Prod.Lex.left _ _ (length_without ‹_›)

inductive ChangeTree where
  | node (root : Node) (children : List ChangeTree)

/-- The trees under a list of hashes, and the stock that is left. -/
def grow (stock : List Node) (hashes : List String) :
    List ChangeTree × { rest : List Node // rest.length ≤ stock.length } :=
  match hashes with
  | [] => ([], ⟨stock, Nat.le_refl _⟩)
  | h :: hashes =>
    match found : stock.find? (fun n => n.hash = h) with
    | none => grow stock hashes
    | some n =>
      match grow (without h stock) n.children with
      | (children, ⟨rest, hrest⟩) =>
        match grow rest hashes with
        | (siblings, ⟨left, hleft⟩) =>
          (.node n children :: siblings,
            ⟨left, Nat.le_trans (Nat.le_trans hleft hrest) (Nat.le_of_lt (length_without found))⟩)
termination_by (stock.length, hashes.length)
decreasing_by
  · exact Prod.Lex.right _ (by simp)
  · exact Prod.Lex.left _ _ (length_without ‹_›)
  · exact Prod.Lex.left _ _ (Nat.lt_of_le_of_lt hrest (length_without ‹_›))

mutual

/-- The nodes of a tree, each before its children. -/
def ChangeTree.preorder : ChangeTree → List Node
  | .node root children => root :: ChangeTree.preorderAll children

def ChangeTree.preorderAll : List ChangeTree → List Node
  | [] => []
  | t :: ts => t.preorder ++ ChangeTree.preorderAll ts

end

mutual

/-- The form of a node in a report, with its subtree. -/
def ChangeTree.toJson : ChangeTree → Json
  | .node root children => .obj [
    ("type", .str root.type.name),
    ("path", .str root.path),
    ("level", .int root.level),
    ("parent", .str root.parentHash),
    ("networkdata", (root.network.map NetworkEvent.toJson).getD .null),
    ("fileprocessdata", (root.file.map FileEvent.toJson).getD .null),
    ("changetype", root.change.toJson),
    ("children", if children.isEmpty then .null else .arr (ChangeTree.listToJson children))]

def ChangeTree.listToJson : List ChangeTree → List Json
  | [] => []
  | t :: ts => t.toJson :: ChangeTree.listToJson ts

end

/-- Adds a value to the group of a key; a new key comes last. -/
def addToGroup {α : Type} (key : String) (value : α) : List (String × List α) → List (String × List α)
  | [] => [(key, [value])]
  | (k, group) :: groups =>
    if k = key then (k, group ++ [value]) :: groups else (k, group) :: addToGroup key value groups

/-- The leaves of a list of nodes by their parents, in order of first appearance. -/
def leavesByParent (nodes : List Node) : List (String × List Node) :=
  (nodes.filter Node.isLeaf).foldl (fun groups n => addToGroup n.parentHash n groups) []

namespace ChangeGraph

def depthFirst (g : ChangeGraph) (root : String) : List Node := visit g.nodes [root]

def leaves (g : ChangeGraph) (root : String) : List Node := (g.depthFirst root).filter Node.isLeaf

def leafGroups (g : ChangeGraph) (root : String) : List (String × List Node) :=
  leavesByParent (g.depthFirst root)

/-- The tree under a node, in which every node stands at its first occurrence. -/
def tree (g : ChangeGraph) (n : Node) : ChangeTree :=
  .node n (grow (without n.hash g.nodes) n.children).1

def render (g : ChangeGraph) (n : Node) : Json := (g.tree n).toJson

end ChangeGraph
end WorkloadDrift
