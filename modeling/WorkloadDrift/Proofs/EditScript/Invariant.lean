import Mathlib.Order.Bounds.Defs
import WorkloadDrift.Proofs.EditScript.Shortest

/-!
# What every round keeps

The search enters a round with the frontier that the round before it left. There each
diagonal holds the furthest point that as many steps as there were rounds lead to, and
a point in the grid comes with a script for what lies before it. So a round never steps
above the grid, and what it goes over diagonally is in both sequences.
-/
namespace WorkloadDrift.EditScript

variable {α : Type} {a b : Array α} {d i : Nat}

/-- The diagonals of round `d`, which are `-d, -d + 2, …, d`, by how much the first position is
ahead of the second. -/
def diagonal (d i : Nat) : Int := 2 * i - d

/-- The furthest point on a diagonal with a number of steps, and a script if it is in the grid. -/
structure Furthest (a b : Array α) (d : Nat) (k : Int) (p : Path α) : Prop where
  greatest : IsGreatest {x : Nat | ∃ y : Nat, (x : Int) - y = k ∧ Reaches a b d x y} p.x
  turns : p.x ≤ a.size → p.x - k ≤ b.size →
    Turns p.edits.reverse (a.toList.take p.x) (b.toList.take (p.x - k).toNat) d

theorem column_eq_sub {x : Nat} (h : 2 * i ≤ x + d) : (column d i x : Int) = x - diagonal d i := by
  unfold column diagonal
  omega

variable [DecidableEq α]

/-- The search enters a round when none before it is finished. -/
inductive Enters (a b : Array α) : Nat → List (Path α) → Prop
  | first : Enters a b 0 initialFrontier
  | next {d : Nat} {last : List (Path α)} (before : Enters a b d last)
      (unfinished : finished? a b d (round a b last d) = none) :
      Enters a b (d + 1) (round a b last d)

/-- The positions of a round on one of its diagonals, from its step on. None is negative, and both
sequences have the same element at each position that the round goes over. -/
structure StaysInside (a b : Array α) (last : List (Path α)) (d i : Nat) : Prop where
  position : ∀ x, (advance a b last d i).x ≤ x → (column d i x : Int) = x - diagonal d i
  shared : ∀ x, (advance a b last d i).x ≤ x → x < (reach a b last d i).x →
    ∃ v, a[x]? = some v ∧ b[column d i x]? = some v

/-! ## One round -/

theorem follow_shared {budget y : Nat} {p : Path α} {n : Nat}
    (hn : p.x + n < (follow a b budget y p).x) :
    ∃ v, a[p.x + n]? = some v ∧ b[y + n]? = some v := by
  induction budget generalizing y p n with
  | zero =>
    rw [follow] at hn
    omega
  | succ budget ih =>
    unfold follow at hn
    split at hn
    · next u v ha hb =>
      split at hn
      · next huv =>
        subst huv
        cases n with
        | zero => exact ⟨u, ha, hb⟩
        | succ n =>
          have hnext := ih (p := ⟨p.x + 1, ⟨.keep, u⟩ :: p.edits⟩) (n := n) (y := y + 1)
            (by dsimp only; omega)
          simpa only [Nat.add_assoc, Nat.add_comm 1 n] using hnext
      · omega
    · omega

/-- No step leads above the grid. -/
theorem two_mul_le_advance (hi : i ≤ d) : 2 * i ≤ (advance a b (fronts a b d) d i).x + d := by
  cases d with
  | zero => omega
  | succ d =>
    rw [x_advance]
    split
    · next hdown =>
      have hid := le_of_goesDown hdown hi
      have hdiagonal := (stands_furthest (a := a) (b := b) hid).1.onDiagonal
      rw [getD_fronts hid]
      omega
    · next hright =>
      have hpos := pos_of_goesDown ((Bool.not_eq_true _).mp hright)
      have hid : i - 1 ≤ d := by omega
      have hdiagonal := (stands_furthest (a := a) (b := b) hid).1.onDiagonal
      rw [getD_fronts hid]
      omega

theorem staysInside_fronts (hi : i ≤ d) : StaysInside a b (fronts a b d) d i := by
  have hstep := two_mul_le_advance (a := a) (b := b) hi
  constructor
  · intro x hx
    exact column_eq_sub (by omega)
  · intro x hx hlt
    obtain ⟨n, rfl⟩ := Nat.exists_eq_add_of_le hx
    obtain ⟨v, ha, hb⟩ := follow_shared hlt
    have hcolumn : column d i ((advance a b (fronts a b d) d i).x + n) =
        column d i (advance a b (fronts a b d) d i).x + n := by
      unfold column
      omega
    exact ⟨v, ha, hcolumn ▸ hb⟩

theorem furthest_furthest (hi : i ≤ d) : Furthest a b d (diagonal d i) (furthest a b d i) := by
  obtain ⟨hdiagonal, harrives, -⟩ := (stands_furthest (a := a) (b := b) hi).1
  have hcolumn := column_eq_sub hdiagonal
  refine ⟨⟨⟨_, by omega, harrives.reaches⟩, ?_⟩, fun hx hy => ?_⟩
  · rintro x ⟨y, hk, hreaches⟩
    unfold diagonal at hk
    exact hreaches.le_furthest (by omega)
  · rw [← hcolumn] at hy ⊢
    exact harrives.turns hx (by omega)

/-! ## The run -/

namespace Enters

variable {last : List (Path α)}

theorem eq_fronts (h : Enters a b d last) : last = fronts a b d := by
  induction h with
  | first => rfl
  | next _ _ ih => rw [ih, fronts]

theorem unfinished_before (h : Enters a b d last) :
    ∀ d' < d, finished? a b d' (fronts a b (d' + 1)) = none := by
  induction h with
  | first => simp
  | @next d last before unfinished ih =>
    intro d' hlt
    rcases Nat.lt_succ_iff_lt_or_eq.1 hlt with hlt | rfl
    · exact ih d' hlt
    · rwa [before.eq_fronts] at unfinished

/-- No more rounds are entered than there are elements to change, and one. -/
theorem le_size (h : Enters a b d last) : d ≤ a.size + b.size := by
  obtain ⟨d₀, hd₀, hreaches, hearliest⟩ := exists_fewest a b
  obtain ⟨-, edits, hsome, -⟩ := exists_finished_script hreaches hearliest
  by_contra hlate
  have hnone := h.unfinished_before d₀ (by omega)
  rw [hsome] at hnone
  cases hnone

/-- What is left of the search as it enters a round. -/
theorem editScript_eq (h : Enters a b d last) :
    editScript a.toList b.toList = search a b (a.size + b.size + 1 - d) d last := by
  induction h with
  | first => simp [editScript]
  | @next d last before unfinished ih =>
    have hle := before.le_size
    have hrounds : a.size + b.size + 1 - d = (a.size + b.size + 1 - (d + 1)) + 1 := by omega
    rw [ih, hrounds, search, unfinished]

end Enters

/-- Whenever the search enters a round, the frontier that the completed round before it left
holds the furthest point of each diagonal, with its script, and the new round stays inside. -/
theorem frontier_furthest {last : List (Path α)} (h : Enters a b d last) :
    editScript a.toList b.toList = search a b (a.size + b.size + 1 - d) d last ∧
    (∀ completed, d = completed + 1 → last.length = d ∧ ∀ i ≤ completed, ∃ p, last[i]? = some p ∧
      Furthest a b completed (diagonal completed i) p) ∧
    ∀ i ≤ d, StaysInside a b last d i := by
  refine ⟨h.editScript_eq, ?_, fun i hi => h.eq_fronts ▸ staysInside_fronts hi⟩
  rintro completed rfl
  rw [h.eq_fronts]
  refine ⟨by simp [fronts, round], fun i hi => ⟨_, ?_, furthest_furthest hi⟩⟩
  have hlt : i < completed + 1 := by omega
  simp [fronts, round, furthest, hlt]

/-- A removal leads to an element that both sequences have, and further than any other step. -/
theorem frontier_furthest_shifted :
    let last : List (Path Char) := [⟨0, [⟨.insert, 'b'⟩]⟩, ⟨2, [⟨.keep, 'b'⟩, ⟨.remove, 'a'⟩]⟩]
    Enters #['a', 'b'] #['b', 'c'] 2 last ∧
      editScript ['a', 'b'] ['b', 'c'] = search #['a', 'b'] #['b', 'c'] 3 2 last ∧
      Furthest #['a', 'b'] #['b', 'c'] 1 1 ⟨2, [⟨.keep, 'b'⟩, ⟨.remove, 'a'⟩]⟩ ∧
      StaysInside #['a', 'b'] #['b', 'c'] last 2 1 := by
  intro last
  have henters : Enters #['a', 'b'] #['b', 'c'] 2 last := .next (.next .first (by rfl)) (by rfl)
  obtain ⟨hleft, hcompleted, hinside⟩ := frontier_furthest henters
  obtain ⟨-, hfurthest⟩ := hcompleted 1 rfl
  obtain ⟨p, hp, hlast⟩ := hfurthest 1 (Nat.le_refl 1)
  cases hp
  exact ⟨henters, hleft, hlast, hinside 1 (by decide)⟩

end WorkloadDrift.EditScript
