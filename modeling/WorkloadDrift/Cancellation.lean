import WorkloadDrift.Change.Traversal

/-!
# Cancellation of moved values

A value that goes at one leaf and comes at another has only moved. For each
value the last leaf that inserts it and the last that removes it are partners.
Leaves cancel in groups in which every value of every leaf has its partner in
the group.
-/
namespace WorkloadDrift
namespace Cancellation

def lastInserting? (leaves : List Node) (value : String) : Option Node :=
  leaves.reverse.find? fun n => value ∈ n.change.insert

def lastRemoving? (leaves : List Node) (value : String) : Option Node :=
  leaves.reverse.find? fun n => value ∈ n.change.remove

/-- The partner of a leaf for one of its values, where `own` is the last leaf on the side of the leaf
and `other` the last one on the other side. -/
def partner? (n : Node) (own other : Option Node) : Option String :=
  if own.map (·.hash) = some n.hash then other.map (·.hash) else none

/-- The partners of a leaf for all its values; none at all if a value has no partner. -/
def partners? (leaves : List Node) (n : Node) : Option (List String) :=
  if n.change.insert.isEmpty && n.change.remove.isEmpty then none
  else do
    let ofInsert ← n.change.insert.mapM fun v =>
      partner? n (lastInserting? leaves v) (lastRemoving? leaves v)
    let ofRemove ← n.change.remove.mapM fun v =>
      partner? n (lastRemoving? leaves v) (lastInserting? leaves v)
    return ofInsert ++ ofRemove

/-- A leaf with its partners. -/
structure Candidate where
  hash : String
  partners : List String

def candidates (leaves : List Node) : List Candidate :=
  leaves.filterMap fun n => (partners? leaves n).map (⟨n.hash, ·⟩)

/-- Whether all partners are among the candidates. -/
def isBacked (all : List Candidate) (c : Candidate) : Bool :=
  c.partners.all fun h => all.any fun d => d.hash = h

def backed (all : List Candidate) : List Candidate := all.filter (isBacked all)

/-- Drops candidates that are not backed until all that remain are. -/
def settle (all : List Candidate) : List Candidate :=
  if (backed all).length < all.length then settle (backed all) else all
termination_by all.length

/-- The hashes of the leaves that cancel. -/
def matched (leaves : List Node) : List String := (settle (candidates leaves)).map (·.hash)

end Cancellation

/-- Cancels moved values under a root, and counts the leaves that were not canceled before. -/
def ChangeGraph.cancelMoved (g : ChangeGraph) (root : String) : ChangeGraph × Nat :=
  let leaves := g.leaves root
  let matched := Cancellation.matched leaves
  let fresh := leaves.filter fun n => n.hash ∈ matched && !n.change.canceled
  (g.cancel (· ∈ matched), fresh.length)

end WorkloadDrift
