import Mathlib.Data.List.Basic

/-!
# Forests

Ordered trees in a row, written as first child and next sibling.
-/
namespace WorkloadDrift

/-- A first tree, by its root and the forest below that, with the trees after it. -/
inductive Forest (α : Type) where
  | nil
  | cons (root : α) (below rest : Forest α)
  deriving DecidableEq, Repr

namespace Forest

variable {α β : Type}

def append : Forest α → Forest α → Forest α
  | nil, g => g
  | cons a below rest, g => cons a below (rest.append g)

instance : Append (Forest α) := ⟨append⟩

@[simp] theorem nil_append (g : Forest α) : nil ++ g = g := rfl

@[simp] theorem cons_append (a : α) (below rest g : Forest α) :
    cons a below rest ++ g = cons a below (rest ++ g) := rfl

def leaf (a : α) : Forest α := cons a nil nil

/-- The forests of the elements of a list, one after another. -/
def flatMap (l : List β) (f : β → Forest α) : Forest α := l.foldr (fun b g => f b ++ g) nil

@[simp] theorem flatMap_nil (f : β → Forest α) : flatMap [] f = nil := rfl

@[simp] theorem flatMap_cons (b : β) (l : List β) (f : β → Forest α) :
    flatMap (b :: l) f = f b ++ flatMap l f := rfl

/-- The number of trees. -/
def width : Forest α → Nat
  | nil => 0
  | cons _ _ rest => rest.width + 1

/-- Every entry before those below it. -/
def entries : Forest α → List α
  | nil => []
  | cons a below rest => a :: (below.entries ++ rest.entries)

@[simp] theorem entries_append (f g : Forest α) : (f ++ g).entries = f.entries ++ g.entries := by
  induction f with
  | nil => rfl
  | cons a below rest _ ih => simp [entries, ih]

@[simp] theorem entries_leaf (a : α) : (leaf a).entries = [a] := rfl

@[simp] theorem entries_flatMap (l : List β) (f : β → Forest α) :
    (flatMap l f).entries = l.flatMap fun b => (f b).entries := by
  induction l with
  | nil => rfl
  | cons b l ih => simp [ih]

/-- Every entry before those below it, with the number of trees right below. In this order the
numbers tell how the entries hang together. -/
def preorder : Forest α → List (α × Nat)
  | nil => []
  | cons a below rest => (a, below.width) :: (below.preorder ++ rest.preorder)

end Forest
end WorkloadDrift
