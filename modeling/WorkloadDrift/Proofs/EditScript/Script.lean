import Mathlib.Data.List.Basic
import WorkloadDrift.EditScript

/-!
# What a script does

A script goes over one sequence by what it keeps and removes, and over another by
what it keeps and inserts. What it keeps is a subsequence of both, and every
common subsequence is what some script keeps, so the fewer changes a script makes,
the longer the common subsequence that it keeps.
-/
namespace WorkloadDrift.EditScript

variable {α : Type}

/-- The values of the edits of some kinds, in order. -/
def valuesWith (kinds : List EditKind) (s : List (Edit α)) : List α :=
  (s.filter fun e => e.kind ∈ kinds).map (·.value)

def source (s : List (Edit α)) : List α := valuesWith [.keep, .remove] s

def target (s : List (Edit α)) : List α := valuesWith [.keep, .insert] s

def kept (s : List (Edit α)) : List α := valuesWith [.keep] s

/-- The number of edits that do not keep. -/
def changes (s : List (Edit α)) : Nat := s.countP fun e => e.kind ≠ .keep

@[simp] theorem valuesWith_nil (kinds : List EditKind) :
    valuesWith kinds ([] : List (Edit α)) = [] := rfl

@[simp] theorem valuesWith_cons (kinds : List EditKind) (e : Edit α) (s : List (Edit α)) :
    valuesWith kinds (e :: s) =
      if e.kind ∈ kinds then e.value :: valuesWith kinds s else valuesWith kinds s := by
  by_cases h : e.kind ∈ kinds <;> simp [valuesWith, h]

@[simp] theorem valuesWith_append (kinds : List EditKind) (s t : List (Edit α)) :
    valuesWith kinds (s ++ t) = valuesWith kinds s ++ valuesWith kinds t := by
  simp [valuesWith]

@[simp] theorem changes_nil : changes ([] : List (Edit α)) = 0 := rfl

@[simp] theorem changes_cons (e : Edit α) (s : List (Edit α)) :
    changes (e :: s) = changes s + if e.kind = .keep then 0 else 1 := by
  by_cases h : e.kind = .keep <;> simp [changes, h]

@[simp] theorem changes_append (s t : List (Edit α)) : changes (s ++ t) = changes s + changes t := by
  simp [changes]

theorem valuesWith_map (kinds : List EditKind) (k : EditKind) (l : List α) :
    valuesWith kinds (l.map (Edit.mk k)) = if k ∈ kinds then l else [] := by
  by_cases h : k ∈ kinds <;> simp [valuesWith, List.filter_map, Function.comp_def, h]

theorem valuesWith_sublist {kinds kinds' : List EditKind} (h : kinds ⊆ kinds')
    (s : List (Edit α)) : (valuesWith kinds s).Sublist (valuesWith kinds' s) := by
  induction s with
  | nil => simp
  | cons e s ih =>
    by_cases hk : e.kind ∈ kinds
    · simpa [hk, h hk] using ih
    · by_cases hk' : e.kind ∈ kinds'
      · simpa [hk, hk'] using ih.cons e.value
      · simpa [hk, hk'] using ih

theorem kept_sublist_source (s : List (Edit α)) : (kept s).Sublist (source s) :=
  valuesWith_sublist (by simp) s

theorem kept_sublist_target (s : List (Edit α)) : (kept s).Sublist (target s) :=
  valuesWith_sublist (by simp) s

/-- Each element of either side is changed, or it is kept together with one of the other side. -/
theorem changes_add_kept (s : List (Edit α)) :
    changes s + 2 * (kept s).length = (source s).length + (target s).length := by
  induction s with
  | nil => rfl
  | cons e s ih =>
    simp only [kept, source, target, valuesWith_cons, changes_cons] at ih ⊢
    cases e.kind <;> simp <;> omega

/-- Every common subsequence is what some script keeps. -/
theorem exists_script {c u v : List α} (hu : c.Sublist u) (hv : c.Sublist v) :
    ∃ s, source s = u ∧ target s = v ∧ kept s = c := by
  induction hu generalizing v with
  | slnil => exact ⟨v.map (.mk .insert), by simp [source, target, kept, valuesWith_map]⟩
  | cons w _ ih =>
    obtain ⟨s, hsource, htarget, hkept⟩ := ih hv
    refine ⟨⟨.remove, w⟩ :: s, ?_⟩
    simp_all [source, target, kept]
  | @cons_cons c u w _ ih =>
    generalize hc : w :: c = c' at hv
    induction hv with
    | slnil => simp at hc
    | cons w' _ ihv =>
      obtain ⟨s, hsource, htarget, hkept⟩ := ihv hc
      refine ⟨⟨.insert, w'⟩ :: s, ?_⟩
      simp_all [source, target, kept]
    | cons_cons w' hv =>
      obtain ⟨rfl, rfl⟩ := List.cons.inj hc
      obtain ⟨s, hsource, htarget, hkept⟩ := ih hv
      refine ⟨⟨.keep, w⟩ :: s, ?_⟩
      simp_all [source, target, kept]

/-- A common subsequence with none longer. -/
structure LongestCommon (c u v : List α) : Prop where
  left : c.Sublist u
  right : c.Sublist v
  longest : ∀ c' : List α, c'.Sublist u → c'.Sublist v → c'.length ≤ c.length

/-- A script with the fewest changes keeps a longest common subsequence. -/
theorem longestCommon_kept {s : List (Edit α)}
    (fewest : ∀ s', source s' = source s → target s' = target s → changes s ≤ changes s') :
    LongestCommon (kept s) (source s) (target s) where
  left := kept_sublist_source s
  right := kept_sublist_target s
  longest c' hsource htarget := by
    obtain ⟨s', hs, ht, rfl⟩ := exists_script hsource htarget
    have hfewer := fewest s' hs ht
    have hcount := changes_add_kept s
    have hcount' := changes_add_kept s'
    rw [hs, ht] at hcount'
    omega

end WorkloadDrift.EditScript
