import Mathlib.Data.List.Induction
import Mathlib.Data.Nat.Find
import WorkloadDrift.Proofs.EditScript.Script

/-!
# Paths in the edit grid

A path starts at the corner and goes right or down, which counts as a step, or
diagonally along equal elements, which does not. It may leave the grid. A script is
a path to the far corner, and a path that leaves the grid goes no further than one
along its edges that takes fewer steps.
-/
namespace WorkloadDrift.EditScript

variable {α : Type} {a b : Array α} {d x y : Nat}

/-- The points that paths with a number of steps right or down lead to. -/
inductive Reaches (a b : Array α) : Nat → Nat → Nat → Prop
  | start : Reaches a b 0 0 0
  | right {d x y : Nat} : Reaches a b d x y → Reaches a b (d + 1) (x + 1) y
  | down {d x y : Nat} : Reaches a b d x y → Reaches a b (d + 1) x (y + 1)
  | diagonal {d x y : Nat} {v : α} : Reaches a b d x y → a[x]? = some v → b[y]? = some v →
      Reaches a b d (x + 1) (y + 1)

/-- No path goes on diagonally from a point. -/
def Blocked (a b : Array α) (x y : Nat) : Prop := ∀ v, a[x]? = some v → b[y]? ≠ some v

namespace Reaches

/-- The diagonals that a path can end on, numbered as in a round. -/
theorem exists_diagonal (h : Reaches a b d x y) : ∃ i ≤ d, y + 2 * i = x + d := by
  induction h with
  | start => exact ⟨0, by omega⟩
  | right _ ih =>
    obtain ⟨i, hi, heq⟩ := ih
    exact ⟨i + 1, by omega⟩
  | down _ ih =>
    obtain ⟨i, hi, heq⟩ := ih
    exact ⟨i, by omega⟩
  | diagonal _ _ _ ih =>
    obtain ⟨i, hi, heq⟩ := ih
    exact ⟨i, by omega⟩

/-- A path that ends beyond the grid, cut off at its edges, saves the steps outside. -/
theorem clip (h : Reaches a b d x y) :
    ∃ d', d' + (x - a.size) + (y - b.size) ≤ d ∧ Reaches a b d' (min x a.size) (min y b.size) := by
  induction h with
  | start => exact ⟨0, by simp, by simpa using start⟩
  | @right d x y _ ih =>
    obtain ⟨d', hle, hreaches⟩ := ih
    by_cases hx : x < a.size
    · rw [Nat.min_eq_left (by omega : x ≤ a.size)] at hreaches
      rw [Nat.min_eq_left (by omega : x + 1 ≤ a.size)]
      exact ⟨d' + 1, by omega, hreaches.right⟩
    · rw [Nat.min_eq_right (by omega : a.size ≤ x)] at hreaches
      rw [Nat.min_eq_right (by omega : a.size ≤ x + 1)]
      exact ⟨d', by omega, hreaches⟩
  | @down d x y _ ih =>
    obtain ⟨d', hle, hreaches⟩ := ih
    by_cases hy : y < b.size
    · rw [Nat.min_eq_left (by omega : y ≤ b.size)] at hreaches
      rw [Nat.min_eq_left (by omega : y + 1 ≤ b.size)]
      exact ⟨d' + 1, by omega, hreaches.down⟩
    · rw [Nat.min_eq_right (by omega : b.size ≤ y)] at hreaches
      rw [Nat.min_eq_right (by omega : b.size ≤ y + 1)]
      exact ⟨d', by omega, hreaches⟩
  | @diagonal d x y v _ ha hb ih =>
    obtain ⟨d', hle, hreaches⟩ := ih
    have hx : x < a.size := (Array.getElem?_eq_some_iff.1 ha).1
    have hy : y < b.size := (Array.getElem?_eq_some_iff.1 hb).1
    rw [Nat.min_eq_left (by omega : x ≤ a.size), Nat.min_eq_left (by omega : y ≤ b.size)] at hreaches
    rw [Nat.min_eq_left (by omega : x + 1 ≤ a.size), Nat.min_eq_left (by omega : y + 1 ≤ b.size)]
    exact ⟨d', by omega, hreaches.diagonal ha hb⟩

end Reaches

theorem getElem?_of_isPrefix {p : List α} (h : p <+: a.toList) {n : Nat} (hn : n < p.length) :
    a[n]? = some p[n] := by
  obtain ⟨rest, hrest⟩ := h
  rw [← Array.getElem?_toList, ← hrest, List.getElem?_append_left hn, List.getElem?_eq_getElem hn]

theorem getElem?_of_begins {l : List α} {v : α} (h : (l ++ [v]) <+: a.toList) :
    a[l.length]? = some v := by
  simpa using getElem?_of_isPrefix h (by simp : l.length < (l ++ [v]).length)

/-- A script over the beginnings of two sequences is a path with as many steps as it has changes. -/
theorem reaches_script (s : List (Edit α)) (hsource : source s <+: a.toList)
    (htarget : target s <+: b.toList) :
    Reaches a b (changes s) (source s).length (target s).length := by
  induction s using List.reverseRecOn with
  | nil => exact .start
  | append_singleton s e ih =>
    obtain ⟨kind, v⟩ := e
    have hbefore : Reaches a b (changes s) (source s).length (target s).length := by
      apply ih
      · exact .trans (by simp [source]) hsource
      · exact .trans (by simp [target]) htarget
    cases kind with
    | keep =>
      have hs : source (s ++ [⟨.keep, v⟩]) = source s ++ [v] := by simp [source]
      have ht : target (s ++ [⟨.keep, v⟩]) = target s ++ [v] := by simp [target]
      rw [hs] at hsource ⊢
      rw [ht] at htarget ⊢
      simpa using hbefore.diagonal (getElem?_of_begins hsource) (getElem?_of_begins htarget)
    | insert => simpa [source, target] using hbefore.down
    | remove => simpa [source, target] using hbefore.right

/-- The steps to the far corner that a script takes. -/
theorem reaches_corner {s : List (Edit α)} (hsource : source s = a.toList)
    (htarget : target s = b.toList) : Reaches a b (changes s) a.size b.size := by
  have h : Reaches a b (changes s) (source s).length (target s).length :=
    reaches_script s (by simp [hsource]) (by simp [htarget])
  rwa [hsource, htarget, Array.length_toList, Array.length_toList] at h

/-- The fewest steps to the far corner, no more than the elements of both sequences. -/
theorem exists_fewest (a b : Array α) : ∃ d ≤ a.size + b.size,
    Reaches a b d a.size b.size ∧ ∀ d' < d, ¬ Reaches a b d' a.size b.size := by
  classical
  have hall : Reaches a b (a.size + b.size) a.size b.size := by
    obtain ⟨s, hsource, htarget, hkept⟩ :=
      exists_script (List.nil_sublist a.toList) (List.nil_sublist b.toList)
    have hcount := changes_add_kept s
    rw [hkept, hsource, htarget] at hcount
    have hchanges : changes s = a.size + b.size := by simpa using hcount
    rw [← hchanges]
    exact reaches_corner hsource htarget
  have hex : ∃ d, Reaches a b d a.size b.size := ⟨_, hall⟩
  exact ⟨Nat.find hex, Nat.find_min' hex hall, Nat.find_spec hex, fun d' hlt => Nat.find_min hex hlt⟩

end WorkloadDrift.EditScript
