import WorkloadDrift.Proofs.EditScript.Grid

/-!
# The frontier

After each round every diagonal holds the path that goes furthest along it with as
many steps as there were rounds before. A path that ends in the grid carries the
script of its edits; what a path carries that has left the grid is not looked at.
-/
namespace WorkloadDrift.EditScript

variable {α : Type} {a b : Array α} {d i y : Nat} {p : Path α}

/-- A script from one sequence to another with a number of changes. -/
structure Turns (s : List (Edit α)) (u v : List α) (d : Nat) : Prop where
  source : source s = u
  target : target s = v
  changes : changes s = d

namespace Turns

variable {s : List (Edit α)} {u v : List α}

theorem keep (h : Turns s u v d) (w : α) : Turns (s ++ [⟨.keep, w⟩]) (u ++ [w]) (v ++ [w]) d := by
  obtain ⟨rfl, rfl, rfl⟩ := h
  exact ⟨by simp [EditScript.source], by simp [EditScript.target], by simp⟩

theorem insert (h : Turns s u v d) (w : α) : Turns (s ++ [⟨.insert, w⟩]) u (v ++ [w]) (d + 1) := by
  obtain ⟨rfl, rfl, rfl⟩ := h
  exact ⟨by simp [EditScript.source], by simp [EditScript.target], by simp⟩

theorem remove (h : Turns s u v d) (w : α) : Turns (s ++ [⟨.remove, w⟩]) (u ++ [w]) v (d + 1) := by
  obtain ⟨rfl, rfl, rfl⟩ := h
  exact ⟨by simp [EditScript.source], by simp [EditScript.target], by simp⟩

end Turns

/-! ## One step -/

/-- A path that leads to a point. -/
structure Arrives (a b : Array α) (d y : Nat) (p : Path α) : Prop where
  reaches : Reaches a b d p.x y
  turns : p.x ≤ a.size → y ≤ b.size → Turns p.edits.reverse (a.toList.take p.x) (b.toList.take y) d

theorem take_succ {l : Array α} {n : Nat} {v : α} (h : l[n]? = some v) :
    l.toList.take (n + 1) = l.toList.take n ++ [v] := by
  rw [List.take_add_one, Array.getElem?_toList, h]
  rfl

theorem lt_size {l : Array α} {n : Nat} {v : α} (h : l[n]? = some v) : n < l.size :=
  (Array.getElem?_eq_some_iff.1 h).1

namespace Arrives

theorem start : Arrives a b 0 0 (.start : Path α) where
  reaches := .start
  turns _ _ := ⟨rfl, rfl, rfl⟩

theorem keep (h : Arrives a b d y p) {v : α} (ha : a[p.x]? = some v) (hb : b[y]? = some v) :
    Arrives a b d (y + 1) ⟨p.x + 1, ⟨.keep, v⟩ :: p.edits⟩ where
  reaches := h.reaches.diagonal ha hb
  turns _ _ := by
    rw [List.reverse_cons, take_succ ha, take_succ hb]
    exact (h.turns (Nat.le_of_lt (lt_size ha)) (Nat.le_of_lt (lt_size hb))).keep v

theorem insert (h : Arrives a b d y p) {v : α} (hb : b[y]? = some v) :
    Arrives a b (d + 1) (y + 1) ⟨p.x, ⟨.insert, v⟩ :: p.edits⟩ where
  reaches := h.reaches.down
  turns hx _ := by
    rw [List.reverse_cons, take_succ hb]
    exact (h.turns hx (Nat.le_of_lt (lt_size hb))).insert v

theorem remove (h : Arrives a b d y p) {v : α} (ha : a[p.x]? = some v) :
    Arrives a b (d + 1) y ⟨p.x + 1, ⟨.remove, v⟩ :: p.edits⟩ where
  reaches := h.reaches.right
  turns _ hy := by
    rw [List.reverse_cons, take_succ ha]
    exact (h.turns (Nat.le_of_lt (lt_size ha)) hy).remove v

/-- Below the grid a path may carry anything. -/
theorem below (h : Arrives a b d y p) (hy : b.size ≤ y) (edits : List (Edit α)) :
    Arrives a b (d + 1) (y + 1) ⟨p.x, edits⟩ where
  reaches := h.reaches.down
  turns _ hy' := by omega

theorem beside (h : Arrives a b d y p) (hx : a.size ≤ p.x) (edits : List (Edit α)) :
    Arrives a b (d + 1) y ⟨p.x + 1, edits⟩ where
  reaches := h.reaches.right
  turns hx' _ := absurd hx' (Nat.not_le_of_lt (Nat.lt_succ_of_le hx))

end Arrives

section Advance

variable {last : List (Path α)}

theorem le_of_goesDown (hdown : goesDown last (d + 1) i) (hi : i ≤ d + 1) : i ≤ d := by
  simp only [goesDown, Bool.or_eq_true, Bool.and_eq_true, decide_eq_true_eq] at hdown
  omega

theorem pos_of_goesDown (hright : goesDown last d i = false) : 0 < i := by
  simp only [goesDown, Bool.or_eq_false_iff, decide_eq_false_iff_not] at hright
  omega

theorem x_advance : (advance a b last d i).x =
    if goesDown last d i then (last.getD i .start).x else (last.getD (i - 1) .start).x + 1 := by
  unfold advance
  by_cases hdown : goesDown last d i
  · simp only [hdown, if_true]
    split <;> rfl
  · simp only [hdown]
    split <;> rfl

/-- Of two neighbours the one that leads further is gone on from. -/
theorem le_x_advance (hi : i ≠ d) : (last.getD i .start).x ≤ (advance a b last d i).x := by
  rw [x_advance]
  split
  · exact Nat.le_refl _
  · next hright =>
    simp only [goesDown, Bool.or_eq_true, Bool.and_eq_true, decide_eq_true_eq] at hright
    omega

theorem lt_x_advance (hi : 0 < i) : (last.getD (i - 1) .start).x < (advance a b last d i).x := by
  rw [x_advance]
  split
  · next hdown =>
    simp only [goesDown, Bool.or_eq_true, Bool.and_eq_true, decide_eq_true_eq] at hdown
    omega
  · exact Nat.lt_succ_self _

theorem Arrives.advance_down (h : Arrives a b d y (last.getD i .start))
    (hdown : goesDown last (d + 1) i) (hcolumn : column (d + 1) i (last.getD i .start).x = y + 1) :
    Arrives a b (d + 1) (y + 1) (advance a b last (d + 1) i) := by
  unfold advance
  simp only [hdown, if_true, true_and, hcolumn, Nat.le_add_left, Nat.add_sub_cancel]
  cases hb : b[y]? with
  | some v => exact h.insert hb
  | none =>
    -- There is nothing to insert, and what is removed instead does not count.
    have hy : b.size ≤ y := Array.getElem?_eq_none_iff.1 hb
    split
    · contradiction
    · exact h.below hy _
    · exact h.below hy _

theorem Arrives.advance_right (h : Arrives a b d y (last.getD (i - 1) .start))
    (hright : goesDown last (d + 1) i = false) :
    Arrives a b (d + 1) y (advance a b last (d + 1) i) := by
  unfold advance
  simp only [hright, Bool.false_eq_true, if_false, false_and, Nat.le_add_left, if_true,
    Nat.add_sub_cancel]
  cases ha : a[(last.getD (i - 1) .start).x]? with
  | some v => exact h.remove ha
  | none => exact h.beside (Array.getElem?_eq_none_iff.1 ha) _

end Advance

variable [DecidableEq α]

/-- With a budget for the rest of the first sequence a path is followed until it is blocked. -/
theorem Arrives.follow (h : Arrives a b d y p) {budget : Nat} (hbudget : a.size ≤ p.x + budget) :
    ∃ n, (follow a b budget y p).x = p.x + n ∧ Arrives a b d (y + n) (follow a b budget y p) ∧
      Blocked a b (p.x + n) (y + n) := by
  induction budget generalizing y p with
  | zero =>
    refine ⟨0, rfl, h, fun v hv => ?_⟩
    have hlt := lt_size hv
    omega
  | succ budget ih =>
    unfold EditScript.follow
    split
    · next u v ha hb =>
      by_cases huv : u = v
      · subst huv
        obtain ⟨n, hx, harrives, hblocked⟩ := ih (h.keep ha hb) (by dsimp only; omega)
        rw [if_pos rfl]
        simp only [Nat.add_assoc, Nat.add_comm 1 n] at hx harrives hblocked
        exact ⟨n + 1, hx, harrives, hblocked⟩
      · rw [if_neg huv]
        refine ⟨0, rfl, h, fun w hw hw' => huv ?_⟩
        rw [← Option.some.inj (hw.symm.trans ha), ← Option.some.inj (hw'.symm.trans hb)]
    · next hnone => exact ⟨0, rfl, h, fun v => hnone v v⟩

/-! ## One round -/

/-- The frontier after a number of rounds. -/
def fronts (a b : Array α) : Nat → List (Path α)
  | 0 => initialFrontier
  | d + 1 => round a b (fronts a b d) d

/-- The path of a round on one of its diagonals. -/
def furthest (a b : Array α) (d i : Nat) : Path α := reach a b (fronts a b d) d i

theorem getD_fronts (hi : i ≤ d) : (fronts a b (d + 1)).getD i .start = furthest a b d i := by
  have hlt : i < d + 1 := by omega
  simp [fronts, round, furthest, hlt]

/-- What a path is that a round leaves on a diagonal: it leads to a point of the diagonal and is
blocked there. -/
structure Stands (a b : Array α) (d i : Nat) (p : Path α) : Prop where
  onDiagonal : 2 * i ≤ p.x + d
  arrives : Arrives a b d (column d i p.x) p
  blocked : Blocked a b p.x (column d i p.x)

theorem column_eq {x : Nat} (h : y + 2 * i = x + d) : column d i x = y := by
  unfold column
  omega

theorem reach_eq {last : List (Path α)} (hdiagonal : y + 2 * i = (advance a b last d i).x + d) :
    reach a b last d i =
      follow a b (a.size - (advance a b last d i).x) y (advance a b last d i) := by
  rw [reach, column_eq hdiagonal]

/-- A path that is followed from a point of its diagonal stays on it, and goes on until it is
blocked. -/
theorem stands_reach {last : List (Path α)} (hdiagonal : y + 2 * i = (advance a b last d i).x + d)
    (harrives : Arrives a b d y (advance a b last d i)) :
    Stands a b d i (reach a b last d i) ∧ (advance a b last d i).x ≤ (reach a b last d i).x := by
  have hbudget : a.size ≤ (advance a b last d i).x + (a.size - (advance a b last d i).x) := by omega
  rw [reach_eq hdiagonal]
  obtain ⟨n, hx, harrives, hblocked⟩ := harrives.follow hbudget
  have hcolumn := column_eq (show y + n + 2 * i = (advance a b last d i).x + n + d by omega)
  rw [← hx] at hcolumn hblocked
  rw [← hcolumn] at harrives hblocked
  exact ⟨⟨by omega, harrives, hblocked⟩, by omega⟩

/-- A round goes on from where the one before it stands. -/
theorem stands_succ {last : List (Path α)} (hlast : ∀ j ≤ d, Stands a b d j (last.getD j .start))
    (hi : i ≤ d + 1) : Stands a b (d + 1) i (reach a b last (d + 1) i) ∧
      (advance a b last (d + 1) i).x ≤ (reach a b last (d + 1) i).x := by
  have hx : (advance a b last (d + 1) i).x = _ := x_advance
  cases hdown : goesDown last (d + 1) i with
  | true =>
    obtain ⟨hdiagonal, harrives, -⟩ := hlast i (le_of_goesDown hdown hi)
    rw [hdown, if_pos rfl] at hx
    have hcolumn : column d i (last.getD i .start).x + 2 * i = (last.getD i .start).x + d := by
      unfold column
      omega
    apply stands_reach (y := column d i (last.getD i .start).x + 1)
    · omega
    · exact harrives.advance_down hdown (column_eq (by omega))
  | false =>
    have hpos := pos_of_goesDown hdown
    obtain ⟨hdiagonal, harrives, -⟩ := hlast (i - 1) (by omega)
    rw [hdown, if_neg Bool.false_ne_true] at hx
    have hcolumn : column d (i - 1) (last.getD (i - 1) .start).x + 2 * (i - 1) =
        (last.getD (i - 1) .start).x + d := by
      unfold column
      omega
    apply stands_reach (y := column d (i - 1) (last.getD (i - 1) .start).x)
    · omega
    · exact harrives.advance_right hdown

/-- After each round every diagonal holds a path that stands on it. -/
theorem stands_furthest (hi : i ≤ d) : Stands a b d i (furthest a b d i) ∧
    (advance a b (fronts a b d) d i).x ≤ (furthest a b d i).x := by
  induction d generalizing i with
  | zero =>
    have hadvance : advance a b (fronts a b 0) 0 i = .start := by
      obtain rfl : i = 0 := by omega
      simp [advance, goesDown, fronts, initialFrontier, Path.start, column]
    apply stands_reach (y := 0) <;> rw [hadvance]
    · simp [Path.start]
      omega
    · exact .start
  | succ d ih =>
    apply stands_succ _ hi
    intro j hj
    rw [getD_fronts hj]
    exact (ih hj).1

/-! ## Furthest paths -/

theorem furthest_le_down (hi : i ≤ d) : (furthest a b d i).x ≤ (furthest a b (d + 1) i).x := by
  rw [← getD_fronts hi]
  have hne : i ≠ d + 1 := by omega
  exact Nat.le_trans (le_x_advance hne) (stands_furthest (by omega)).2

theorem furthest_lt_right (hi : i ≤ d) :
    (furthest a b d i).x < (furthest a b (d + 1) (i + 1)).x := by
  rw [← getD_fronts hi]
  exact Nat.lt_of_lt_of_le (lt_x_advance (Nat.succ_pos i)) (stands_furthest (by omega)).2

/-- No path with as many steps goes further along a diagonal. -/
theorem Reaches.le_furthest {x : Nat} (h : Reaches a b d x y) (hdiagonal : y + 2 * i = x + d) :
    x ≤ (furthest a b d i).x := by
  induction h generalizing i with
  | start => exact Nat.zero_le _
  | @right d x y h ih =>
    obtain ⟨j, hj, hj'⟩ := h.exists_diagonal
    obtain rfl : i = j + 1 := by omega
    exact Nat.lt_of_le_of_lt (ih hj') (furthest_lt_right hj)
  | @down d x y h ih =>
    obtain ⟨j, hj, hj'⟩ := h.exists_diagonal
    obtain rfl : i = j := by omega
    exact Nat.le_trans (ih hj') (furthest_le_down hj)
  | @diagonal d x y v h ha hb ih =>
    obtain ⟨j, hj, hj'⟩ := h.exists_diagonal
    obtain rfl : i = j := by omega
    have hstands := (stands_furthest (a := a) (b := b) hj).1
    rcases Nat.lt_or_eq_of_le (ih hj') with hlt | heq
    · exact hlt
    · have hblocked := hstands.blocked
      rw [← heq, column_eq hj'] at hblocked
      exact absurd hb (hblocked v ha)

end WorkloadDrift.EditScript
