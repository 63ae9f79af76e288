import Mathlib.Data.Finset.Insert
import Mathlib.Logic.Function.Iterate
import WorkloadDrift.Proofs.Change.Walk

/-!
# Walks that mark

A recursion that goes through hashes from left to right, and a loop that takes them off a
stack, both mark the hashes of the nodes that they meet. They meet the same nodes in the
same order as the walk over a stock, which holds the nodes that are not marked.
-/
namespace WorkloadDrift
namespace ChangeGraph

/-- The stored nodes whose hashes are not marked. -/
def unmarked (g : ChangeGraph) (seen : Finset String) : List Node :=
  g.nodes.filter fun n => n.hash ∉ seen

variable {g : ChangeGraph} {seen : Finset String} {h : String}

@[simp] theorem unmarked_empty : g.unmarked ∅ = g.nodes := by simp [unmarked]

theorem unmarked_insert : g.unmarked (insert h seen) = without h (g.unmarked seen) := by
  rw [unmarked, unmarked, without, List.filter_filter]
  simp only [Finset.mem_insert, not_or, Bool.decide_and, ne_eq]

theorem length_unmarked_le {marks : Finset String} (hmarks : seen ⊆ marks) :
    (g.unmarked marks).length ≤ (g.unmarked seen).length := by
  refine (List.monotone_filter_right g.nodes fun n hn => ?_).length_le
  simp only [decide_eq_true_iff] at hn ⊢
  exact fun hseen => hn (hmarks hseen)

theorem find?_unmarked_of_notMem (hseen : h ∉ seen) :
    (g.unmarked seen).find? (fun n => n.hash = h) = g.get? h := by
  rw [unmarked, List.find?_filter, get?]
  congr 1
  funext n
  by_cases hn : n.hash = h <;> simp [hn, hseen]

theorem find?_unmarked_of_skipped (hskip : h ∈ seen ∨ g.get? h = none) :
    (g.unmarked seen).find? (fun n => n.hash = h) = none := by
  by_cases hseen : h ∈ seen
  · simp only [unmarked, List.find?_eq_none, List.mem_filter, decide_eq_true_iff]
    rintro n ⟨-, hn⟩ rfl
    exact hn hseen
  · exact (find?_unmarked_of_notMem hseen).trans (hskip.resolve_left hseen)

theorem length_unmarked_insert {n : Node} (hseen : h ∉ seen) (hfound : g.get? h = some n) :
    (g.unmarked (insert h seen)).length < (g.unmarked seen).length := by
  rw [unmarked_insert]
  exact length_without ((find?_unmarked_of_notMem hseen).trans hfound)

/-! ## The recursion -/

/-- The nodes that a recursion meets from hashes in turn, each before what it meets from that node's
children, and the marks that it leaves. A hash that is marked or not stored is passed over. -/
def descend (g : ChangeGraph) (seen : Finset String) (hashes : List String) :
    List Node × { marks : Finset String // seen ⊆ marks } :=
  match hashes with
  | [] => ([], ⟨seen, subset_rfl⟩)
  | h :: hashes =>
    if _hseen : h ∈ seen then g.descend seen hashes
    else
      match _hfound : g.get? h with
      | none => g.descend seen hashes
      | some n =>
        let below := g.descend (insert h seen) n.children
        let after := g.descend below.2 hashes
        (n :: (below.1 ++ after.1),
          ⟨after.2, (Finset.subset_insert h seen).trans (below.2.2.trans after.2.2)⟩)
termination_by ((g.unmarked seen).length, hashes.length)
decreasing_by
  · exact Prod.Lex.right _ (by simp)
  · exact Prod.Lex.right _ (by simp)
  · exact Prod.Lex.left _ _ (length_unmarked_insert ‹_› ‹_›)
  · refine Prod.Lex.left _ _ (Nat.lt_of_le_of_lt (length_unmarked_le ?_)
      (length_unmarked_insert ‹_› ‹_›))
    exact below.2.2

/-- What holds of no hashes, with a hash in front that is passed over, and with a hash in front whose
node is met, holds of all marks and hashes. -/
@[elab_as_elim]
theorem descend_induction {motive : Finset String → List String → Prop}
    (nil : ∀ seen, motive seen [])
    (skipped : ∀ seen h hashes, h ∈ seen ∨ g.get? h = none → motive seen hashes →
      motive seen (h :: hashes))
    (met : ∀ seen h hashes n, h ∉ seen → g.get? h = some n → motive (insert h seen) n.children →
      motive (g.descend (insert h seen) n.children).2 hashes → motive seen (h :: hashes))
    (seen : Finset String) (hashes : List String) : motive seen hashes := by
  induction seen, hashes using descend.induct (g := g) with
  | case1 seen => exact nil seen
  | case2 seen h hashes hseen ih => exact skipped seen h hashes (.inl hseen) ih
  | case3 seen h hashes _ hnone ih => exact skipped seen h hashes (.inr hnone) ih
  | case4 seen h hashes hseen n hfound _ ihBelow _ ihAfter =>
    exact met seen h hashes n hseen hfound ihBelow ihAfter

theorem descend_of_skipped (hskip : h ∈ seen ∨ g.get? h = none) {hashes : List String} :
    g.descend seen (h :: hashes) = g.descend seen hashes := by
  rw [descend]
  split
  · rfl
  · next hseen =>
    split
    · rfl
    · next hfound => simp [hfound, hseen] at hskip

theorem descend_of_found {n : Node} (hseen : h ∉ seen) (hfound : g.get? h = some n)
    (hashes : List String) :
    let below := g.descend (insert h seen) n.children
    let after := g.descend below.2 hashes
    (g.descend seen (h :: hashes)).1 = n :: (below.1 ++ after.1) ∧
      (g.descend seen (h :: hashes)).2.1 = after.2.1 := by
  rw [descend, dif_neg hseen]
  split
  · next hnone => simp [hfound] at hnone
  · next m hm =>
    obtain rfl : n = m := Option.some.inj (hfound.symm.trans hm)
    exact ⟨rfl, rfl⟩

/-- The walk over a stock meets first what the recursion meets from the hashes on top of its stack,
and goes on with what that leaves unmarked. -/
theorem visit_unmarked (seen : Finset String) (hashes stack : List String) :
    visit (g.unmarked seen) (hashes ++ stack) =
      (g.descend seen hashes).1 ++ visit (g.unmarked (g.descend seen hashes).2) stack := by
  induction seen, hashes using descend_induction (g := g) generalizing stack with
  | nil seen => simp [descend]
  | skipped seen h hashes hskip ih =>
    rw [List.cons_append, visit_of_missing (find?_unmarked_of_skipped hskip),
      descend_of_skipped hskip, ih]
  | met seen h hashes n hseen hfound ihBelow ihAfter =>
    obtain ⟨hnodes, hmarks⟩ := descend_of_found hseen hfound hashes
    have hstored := (find?_unmarked_of_notMem hseen).trans hfound
    rw [hnodes, hmarks, List.cons_append, visit_of_found hstored, ← unmarked_insert, ihBelow, ihAfter]
    simp

end ChangeGraph

/-! ## The loop -/

/-- A search under way: the hashes on its stack, the first one on top, the marks, and the nodes met
so far. -/
structure Search where
  stack : List String
  seen : Finset String
  met : List Node

namespace Search

def start (root : String) : Search := ⟨[root], ∅, []⟩

/-- Takes a hash off the stack. Unless it is marked or not stored, it is marked, its node is met and
the children go on the stack. With an empty stack the search is over. -/
def step (g : ChangeGraph) (s : Search) : Search :=
  match s.stack with
  | [] => s
  | h :: stack =>
    if h ∈ s.seen then { s with stack }
    else
      match g.get? h with
      | none => { s with stack }
      | some n => ⟨n.children ++ stack, insert h s.seen, s.met ++ [n]⟩

/-- How many steps a search takes for hashes on the stack and the nodes that it meets from them. -/
def turns (hashes : List String) (nodes : List Node) : Nat :=
  hashes.length + (nodes.flatMap (·.children)).length

theorem turns_cons (h : String) (hashes : List String) (nodes : List Node) :
    turns (h :: hashes) nodes = turns hashes nodes + 1 := by
  simp only [turns, List.length_cons]
  omega

theorem turns_cons_met (h : String) (hashes : List String) (n : Node) (below after : List Node) :
    turns (h :: hashes) (n :: (below ++ after)) = turns hashes after + (turns n.children below + 1) := by
  simp only [turns, List.length_cons, List.flatMap_cons, List.flatMap_append, List.length_append]
  omega

variable {g : ChangeGraph} {seen : Finset String} {h : String} {stack : List String}
  {met : List Node}

theorem step_of_skipped (hskip : h ∈ seen ∨ g.get? h = none) :
    step g ⟨h :: stack, seen, met⟩ = ⟨stack, seen, met⟩ := by
  unfold step
  dsimp only
  split
  · rfl
  · next hseen => rw [hskip.resolve_left hseen]

theorem step_of_found {n : Node} (hseen : h ∉ seen) (hfound : g.get? h = some n) :
    step g ⟨h :: stack, seen, met⟩ = ⟨n.children ++ stack, insert h seen, met ++ [n]⟩ := by
  simp only [step, if_neg hseen, hfound]

/-- Steps from hashes on top of a stack do what the recursion does, and come back to the rest of
the stack. -/
theorem iterate_step (seen : Finset String) (hashes stack : List String) (met : List Node) :
    (step g)^[turns hashes (g.descend seen hashes).1] ⟨hashes ++ stack, seen, met⟩ =
      ⟨stack, (g.descend seen hashes).2, met ++ (g.descend seen hashes).1⟩ := by
  induction seen, hashes using ChangeGraph.descend_induction (g := g) generalizing stack met with
  | nil seen => simp [ChangeGraph.descend, turns]
  | skipped seen h hashes hskip ih =>
    rw [ChangeGraph.descend_of_skipped hskip, turns_cons, Function.iterate_succ_apply,
      List.cons_append, step_of_skipped hskip, ih]
  | met seen h hashes n hseen hfound ihBelow ihAfter =>
    obtain ⟨hnodes, hmarks⟩ := ChangeGraph.descend_of_found hseen hfound hashes
    rw [hnodes, hmarks, turns_cons_met, Function.iterate_add_apply, Function.iterate_succ_apply,
      List.cons_append, step_of_found hseen hfound, ihBelow, ihAfter]
    simp

end Search

namespace ChangeGraph

/-- The walk from a root meets the nodes that the recursion meets, in the same order, and the loop ends
with them after one step for the root and one for each child of a node that it met. They are the
stored nodes that links lead to from the root, each of them once, and none if the root is not stored. -/
theorem depthFirst_eq_descend (g : ChangeGraph) (root : String) :
    g.depthFirst root = (g.descend ∅ [root]).1 ∧
    (Search.step g)^[1 + ((g.depthFirst root).flatMap (·.children)).length] (.start root) =
      ⟨[], (g.descend ∅ [root]).2, g.depthFirst root⟩ ∧
    (∀ n, n ∈ g.depthFirst root ↔ Reached g.nodes [root] n) ∧
    ((g.depthFirst root).map (·.hash)).Nodup ∧
    (g.depthFirst root = [] ↔ g.get? root = none) := by
  have hdescend : g.depthFirst root = (g.descend ∅ [root]).1 := by
    have hvisit := visit_unmarked (g := g) ∅ [root] []
    rwa [unmarked_empty, visit_nil, List.append_nil, List.append_nil] at hvisit
  refine ⟨hdescend, ?_, fun n => mem_visit_iff g.distinct, nodup_visit _ _, ?_⟩
  · rw [hdescend]
    exact Search.iterate_step ∅ [root] [] []
  · rw [depthFirst]
    cases hroot : g.get? root with
    | none => simp [visit_of_missing hroot]
    | some n => simp [visit_of_found hroot]

end ChangeGraph
end WorkloadDrift
