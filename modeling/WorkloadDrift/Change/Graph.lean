import WorkloadDrift.Change.Node

/-!
# Change graphs

Nodes known by their hashes, in the order in which the hashes first came up.
Links are hashes too, so a child need not be stored.
-/
namespace WorkloadDrift

/-- Puts a node in the place of the one with its hash, or at the end. -/
def storeNode (n : Node) : List Node → List Node
  | [] => [n]
  | m :: nodes => if m.hash = n.hash then n :: nodes else m :: storeNode n nodes

theorem mem_hashes_storeNode {n : Node} {nodes : List Node} {h : String} :
    h ∈ (storeNode n nodes).map (·.hash) ↔ h = n.hash ∨ h ∈ nodes.map (·.hash) := by
  induction nodes with
  | nil => simp [storeNode]
  | cons m nodes ih =>
    unfold storeNode
    split
    · next heq => simp [heq]
    · simp only [List.map_cons, List.mem_cons, ih]
      exact or_left_comm

theorem nodup_storeNode {n : Node} {nodes : List Node} (h : (nodes.map (·.hash)).Nodup) :
    ((storeNode n nodes).map (·.hash)).Nodup := by
  induction nodes with
  | nil => simp [storeNode]
  | cons m nodes ih =>
    obtain ⟨hm, hrest⟩ := List.nodup_cons.1 h
    unfold storeNode
    split
    · next heq => simpa [heq] using h
    · next hne =>
      refine List.nodup_cons.2 ⟨fun hmem => ?_, ih hrest⟩
      rcases mem_hashes_storeNode.1 hmem with heq | hmem
      · exact hne heq
      · exact hm hmem

structure ChangeGraph where
  nodes : List Node
  rootHash : Option String
  distinct : (nodes.map (·.hash)).Nodup

namespace ChangeGraph

def empty : ChangeGraph := ⟨[], none, .nil⟩

instance : Inhabited ChangeGraph := ⟨empty⟩

def size (g : ChangeGraph) : Nat := g.nodes.length

def get? (g : ChangeGraph) (h : String) : Option Node := g.nodes.find? fun n => n.hash = h

def contains (g : ChangeGraph) (h : String) : Bool := (g.get? h).isSome

def store (g : ChangeGraph) (n : Node) : ChangeGraph :=
  ⟨storeNode n g.nodes, g.rootHash, nodup_storeNode g.distinct⟩

/-- Changes nodes without changing their hashes. -/
def modify (g : ChangeGraph) (f : Node → Node) (hash_f : ∀ n, (f n).hash = n.hash) : ChangeGraph where
  nodes := g.nodes.map f
  rootHash := g.rootHash
  distinct := by
    rw [List.map_map, show (fun n => n.hash) ∘ f = (·.hash) from funext hash_f]
    exact g.distinct

/-- Cancels the nodes with hashes of a class. -/
def cancel (g : ChangeGraph) (p : String → Bool) : ChangeGraph :=
  g.modify (fun n => if p n.hash then n.cancel else n) fun n => by split <;> rfl

/-- Appends a child hash to a node. -/
def link (g : ChangeGraph) (h child : String) : ChangeGraph :=
  g.modify (fun n => if n.hash = h then n.addChild child else n) fun n => by split <;> rfl

/-- Appends a child hash to a stored node that does not have it yet. -/
def linkNew (g : ChangeGraph) (h child : String) : ChangeGraph :=
  match g.get? h with
  | none => g
  | some parent => if child ∈ parent.children then g else g.link h child

/-- Stores a node under a parent. Without a parent the first such node becomes the root; under a
parent that is not stored it is no node's child. -/
def add (g : ChangeGraph) (n : Node) (parentHash : String) : ChangeGraph :=
  let stored := g.store { n with parentHash }
  if parentHash = "" then { stored with rootHash := g.rootHash.or (some n.hash) }
  else stored.linkNew parentHash n.hash

end ChangeGraph
end WorkloadDrift
