import WorkloadDrift.Proofs.EditScript.Frontier

/-!
# Shortest scripts

The first round in which a path has consumed both sequences is as late as the
fewest steps to the far corner. A path that had left the grid by then would show a
shorter way, so the one that is found ends at the corner and carries a script.
-/
namespace WorkloadDrift.EditScript

/-! ## Complete paths -/

section Complete

variable {α : Type} {a b : Array α} {d i : Nat} {p : Path α}

theorem isComplete_iff : isComplete a b d i p ↔ a.size ≤ p.x ∧ b.size ≤ column d i p.x := by
  simp [isComplete]

/-- By as much as a complete path has gone too far the corner can be reached earlier. -/
theorem Stands.reaches_corner (h : Stands a b d i p) (hcomplete : isComplete a b d i p) :
    ∃ d', d' + (p.x - a.size) + (column d i p.x - b.size) ≤ d ∧ Reaches a b d' a.size b.size := by
  obtain ⟨hx, hy⟩ := isComplete_iff.1 hcomplete
  have hclip := h.arrives.reaches.clip
  rwa [Nat.min_eq_right hx, Nat.min_eq_right hy] at hclip

/-- A path that is complete as early as the corner can be reached carries a script. -/
theorem Stands.turns (h : Stands a b d i p) (hcomplete : isComplete a b d i p)
    (earliest : ∀ d' < d, ¬ Reaches a b d' a.size b.size) :
    Turns p.edits.reverse a.toList b.toList d := by
  obtain ⟨hx, hy⟩ := isComplete_iff.1 hcomplete
  obtain ⟨d', hle, hreaches⟩ := h.reaches_corner hcomplete
  have hlate : d ≤ d' := Nat.le_of_not_lt fun hlt => earliest d' hlt hreaches
  have hturns := h.arrives.turns (by omega) (by omega)
  rwa [List.take_of_length_le (by simpa using hx), List.take_of_length_le (by simpa using hy)]
    at hturns

end Complete

/-! ## The search -/

variable {α : Type} [DecidableEq α] {a b : Array α} {d i : Nat}

/-- When the far corner can be reached, the furthest path on its diagonal is complete. -/
theorem exists_complete (h : Reaches a b d a.size b.size) :
    ∃ i ≤ d, isComplete a b d i (furthest a b d i) := by
  obtain ⟨i, hi, hdiagonal⟩ := h.exists_diagonal
  have hx := h.le_furthest hdiagonal
  refine ⟨i, hi, isComplete_iff.2 ⟨hx, ?_⟩⟩
  unfold column
  omega

theorem mem_zipIdx_fronts {p : Path α} :
    (p, i) ∈ (fronts a b (d + 1)).zipIdx ↔ i ≤ d ∧ p = furthest a b d i := by
  rw [List.mem_zipIdx_iff_getElem?, fronts, round, List.getElem?_map]
  by_cases hi : i ≤ d
  · have hlt : i < d + 1 := by omega
    simp [hi, hlt, furthest, eq_comm]
  · have hge : ¬ i < d + 1 := by omega
    simp [hi, hge]

theorem finished?_eq_none (hnone : ∀ i ≤ d, ¬ isComplete a b d i (furthest a b d i)) :
    finished? a b d (fronts a b (d + 1)) = none := by
  rw [finished?, Option.map_eq_none_iff, List.find?_eq_none]
  rintro ⟨p, i⟩ hmem
  obtain ⟨hi, rfl⟩ := mem_zipIdx_fronts.1 hmem
  exact hnone i hi

theorem exists_finished? (hi : i ≤ d) (hcomplete : isComplete a b d i (furthest a b d i)) :
    ∃ j ≤ d, isComplete a b d j (furthest a b d j) ∧
      finished? a b d (fronts a b (d + 1)) = some (furthest a b d j).edits := by
  have hsome : (finished? a b d (fronts a b (d + 1))).isSome := by
    rw [finished?, Option.isSome_map, List.find?_isSome]
    exact ⟨_, mem_zipIdx_fronts.2 ⟨hi, rfl⟩, hcomplete⟩
  obtain ⟨edits, hedits⟩ := Option.isSome_iff_exists.1 hsome
  obtain ⟨⟨p, j⟩, hfind, rfl⟩ := Option.map_eq_some_iff.1 hedits
  obtain ⟨hj, rfl⟩ := mem_zipIdx_fronts.1 (List.mem_of_find?_eq_some hfind)
  have hfound := List.find?_some hfind
  exact ⟨j, hj, hfound, hedits⟩

/-- A search ends with the first round that is finished. -/
theorem search_eq {rounds d₀ : Nat} {edits : List (Edit α)} (hd : d ≤ d₀) (hrounds : d₀ < d + rounds)
    (hnone : ∀ d' < d₀, finished? a b d' (fronts a b (d' + 1)) = none)
    (hsome : finished? a b d₀ (fronts a b (d₀ + 1)) = some edits) :
    search a b rounds d (fronts a b d) = edits.reverse := by
  induction rounds generalizing d with
  | zero => omega
  | succ rounds ih =>
    have hround : round a b (fronts a b d) d = fronts a b (d + 1) := rfl
    rw [search, hround]
    by_cases heq : d = d₀
    · rw [heq, hsome]
    · rw [hnone d (by omega)]
      exact ih (by omega) (by omega)

/-- The round whose number is the fewest steps is the first to be finished, and a path that finishes
it carries a script. -/
theorem exists_finished_script (hreaches : Reaches a b d a.size b.size)
    (hearliest : ∀ d' < d, ¬ Reaches a b d' a.size b.size) :
    (∀ d' < d, finished? a b d' (fronts a b (d' + 1)) = none) ∧
      ∃ edits, finished? a b d (fronts a b (d + 1)) = some edits ∧
        Turns edits.reverse a.toList b.toList d := by
  constructor
  · intro d' hlt
    apply finished?_eq_none
    intro i hi hcomplete
    obtain ⟨d'', hle, hreaches⟩ := (stands_furthest hi).1.reaches_corner hcomplete
    exact hearliest d'' (by omega) hreaches
  · obtain ⟨i, hi, hcomplete⟩ := exists_complete hreaches
    obtain ⟨j, hj, hcomplete, hsome⟩ := exists_finished? hi hcomplete
    exact ⟨_, hsome, (stands_furthest hj).1.turns hcomplete hearliest⟩

end EditScript

open EditScript

/-- The search is finished in some round, and the script that it returns goes over both sequences
with as few changes as any other. What it keeps is as long as a common subsequence can be. -/
theorem editScript_shortest {α : Type} [DecidableEq α] (a b : List α) :
    (∃ d ≤ a.length + b.length, ∃ edits,
      (∀ d' < d, finished? a.toArray b.toArray d' (fronts a.toArray b.toArray (d' + 1)) = none) ∧
      finished? a.toArray b.toArray d (fronts a.toArray b.toArray (d + 1)) = some edits ∧
      editScript a b = edits.reverse) ∧
    source (editScript a b) = a ∧ target (editScript a b) = b ∧
    (∃ c, LongestCommon c a b ∧ changes (editScript a b) + 2 * c.length = a.length + b.length) ∧
    ∀ s, source s = a → target s = b → changes (editScript a b) ≤ changes s := by
  obtain ⟨d, hd, hreaches, hearliest⟩ := exists_fewest a.toArray b.toArray
  rw [List.size_toArray, List.size_toArray] at hd
  obtain ⟨hnone, edits, hsome, hsource, htarget, hchanges⟩ :=
    exists_finished_script hreaches hearliest
  have hscript : editScript a b = edits.reverse := search_eq (Nat.zero_le d) (by omega) hnone hsome
  rw [← hscript] at hsource htarget hchanges
  have hfewest : ∀ s, source s = a → target s = b → changes (editScript a b) ≤ changes s := by
    intro s hs ht
    rw [hchanges]
    exact Nat.le_of_not_lt fun hlt => hearliest _ hlt (reaches_corner hs ht)
  have hlongest : LongestCommon (kept (editScript a b)) (source (editScript a b))
      (target (editScript a b)) :=
    longestCommon_kept fun s hs ht => hfewest s (hs.trans hsource) (ht.trans htarget)
  have hcount := changes_add_kept (editScript a b)
  rw [hsource, htarget] at hlongest hcount
  exact ⟨⟨d, hd, edits, hnone, hsome, hscript⟩, hsource, htarget, ⟨_, hlongest, hcount⟩, hfewest⟩

example : editScript ['a', 'b', 'c', 'a'] ['c', 'a', 'b'] =
    [⟨.remove, 'a'⟩, ⟨.remove, 'b'⟩, ⟨.keep, 'c'⟩, ⟨.keep, 'a'⟩, ⟨.insert, 'b'⟩] := by decide

end WorkloadDrift
