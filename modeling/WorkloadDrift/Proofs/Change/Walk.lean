import Mathlib.Data.List.Nodup
import WorkloadDrift.Change.Traversal

/-!
# Steps of a walk

What the preorder walk does at a hash, and that it only reads hashes and
children. It meets the stored nodes that links lead to, each of them once.
-/
namespace WorkloadDrift

variable {stock : List Node} {h : String} {stack : List String}

@[simp] theorem visit_nil (stock : List Node) : visit stock [] = [] := by rw [visit]

theorem visit_of_missing (hnone : stock.find? (fun n => n.hash = h) = none) :
    visit stock (h :: stack) = visit stock stack := by
  rw [visit]
  split
  · rfl
  · next hsome => simp [hnone] at hsome

theorem visit_of_found {n : Node} (hsome : stock.find? (fun n => n.hash = h) = some n) :
    visit stock (h :: stack) = n :: visit (without h stock) (n.children ++ stack) := by
  rw [visit]
  split
  · next hnone => simp [hsome] at hnone
  · next m hfound =>
    obtain rfl : n = m := Option.some.inj (hsome.symm.trans hfound)
    rfl

theorem grow_of_missing (hnone : stock.find? (fun n => n.hash = h) = none) :
    grow stock (h :: stack) = grow stock stack := by
  rw [grow]
  split
  · rfl
  · next hsome => simp [hnone] at hsome

theorem grow_of_found {n : Node} (hsome : stock.find? (fun n => n.hash = h) = some n) :
    (grow stock (h :: stack)).1 = .node n (grow (without h stock) n.children).1 ::
        (grow (grow (without h stock) n.children).2 stack).1 ∧
      (grow stock (h :: stack)).2.1 = (grow (grow (without h stock) n.children).2 stack).2.1 := by
  rw [grow]
  split
  · next hnone => simp [hsome] at hnone
  · next m hfound =>
    obtain rfl : n = m := Option.some.inj (hsome.symm.trans hfound)
    exact ⟨rfl, rfl⟩

section Map

variable {f : Node → Node}

theorem find?_map_hash (hhash : ∀ n, (f n).hash = n.hash) (h : String) (stock : List Node) :
    (stock.map f).find? (fun n => n.hash = h) = (stock.find? fun n => n.hash = h).map f := by
  rw [List.find?_map]
  simp only [Function.comp_def, hhash]

theorem without_map (hhash : ∀ n, (f n).hash = n.hash) (h : String) (stock : List Node) :
    without h (stock.map f) = (without h stock).map f := by
  rw [without, List.filter_map]
  simp [without, Function.comp_def, hhash]

theorem visit_map (hhash : ∀ n, (f n).hash = n.hash) (hchildren : ∀ n, (f n).children = n.children)
    (stock : List Node) (stack : List String) :
    visit (stock.map f) stack = (visit stock stack).map f := by
  induction stock, stack using visit.induct with
  | case1 stock => simp
  | case2 stock h stack hnone ih =>
    rw [visit_of_missing hnone, visit_of_missing (by rw [find?_map_hash hhash, hnone]; rfl), ih]
  | case3 stock h stack n hsome ih =>
    rw [visit_of_found hsome,
      visit_of_found (n := f n) (by rw [find?_map_hash hhash, hsome]; rfl),
      without_map hhash, hchildren, ih, List.map_cons]

end Map

/-- Cancels a node whose hash is in a class. -/
def Node.cancelIf (p : String → Bool) (n : Node) : Node := if p n.hash then n.cancel else n

section CancelIf

variable (p : String → Bool) (n : Node)

/-- A node is canceled or left as it is. -/
theorem Node.cancelIf_eq_or : n.cancelIf p = n ∨ n.cancelIf p = n.cancel := by
  unfold cancelIf
  split
  · exact .inr rfl
  · exact .inl rfl

@[simp] theorem Node.hash_cancelIf : (n.cancelIf p).hash = n.hash := by
  unfold cancelIf
  split <;> rfl

@[simp] theorem Node.children_cancelIf : (n.cancelIf p).children = n.children := by
  unfold cancelIf
  split <;> rfl

@[simp] theorem Node.isLeaf_cancelIf : (n.cancelIf p).isLeaf = n.isLeaf := by
  unfold cancelIf
  split <;> rfl

@[simp] theorem Node.canceled_cancelIf :
    (n.cancelIf p).change.canceled = (n.change.canceled || p n.hash) := by
  unfold cancelIf
  cases h : p n.hash <;> simp [cancel]

end CancelIf

theorem ChangeGraph.nodes_cancel (g : ChangeGraph) (p : String → Bool) :
    (g.cancel p).nodes = g.nodes.map (Node.cancelIf p) := rfl

theorem ChangeGraph.leaves_cancel (g : ChangeGraph) (p : String → Bool) (root : String) :
    (g.cancel p).leaves root = (g.leaves root).map (Node.cancelIf p) := by
  have hvisit : (g.cancel p).depthFirst root = (g.depthFirst root).map (Node.cancelIf p) :=
    visit_map (Node.hash_cancelIf p) (Node.children_cancelIf p) g.nodes [root]
  rw [leaves, hvisit, List.filter_map]
  simp [leaves, Function.comp_def]

/-- Of leaves that were all active those stay that are not canceled. -/
theorem ChangeGraph.active_leaves_cancel {g : ChangeGraph} (p : String → Bool) {root : String}
    (hactive : ∀ n ∈ g.leaves root, n.change.canceled = false) :
    ((g.cancel p).leaves root).filter (fun n => !n.change.canceled) =
      (g.leaves root).filter fun n => !p n.hash := by
  have hkept : ∀ n ∈ g.leaves root, (!(n.cancelIf p).change.canceled) = !p n.hash := by
    intro n hn
    rw [Node.canceled_cancelIf, hactive n hn, Bool.false_or]
  rw [ChangeGraph.leaves_cancel, List.filter_map]
  refine (congrArg _ (List.filter_congr hkept)).trans ?_
  refine (List.map_congr_left fun n hn => ?_).trans (List.map_id _)
  have hspared : p n.hash = false := by simpa using (List.mem_filter.1 hn).2
  simp [Node.cancelIf, hspared]

/-! ## What a walk meets -/

/-- A stored node that a hash on the stack names, or that a link of such a node leads to. -/
inductive Reached (stock : List Node) (stack : List String) : Node → Prop
  | start {n : Node} : n ∈ stock → n.hash ∈ stack → Reached stock stack n
  | child {parent n : Node} : Reached stock stack parent → n ∈ stock → n.hash ∈ parent.children →
      Reached stock stack n

theorem mem_without {n : Node} : n ∈ without h stock ↔ n ∈ stock ∧ n.hash ≠ h := by
  simp [without]

theorem not_reached_nil {m : Node} (hm : Reached stock [] m) : False := by
  induction hm with
  | start _ h => simp at h
  | child _ _ _ ih => exact ih

theorem reached_cons_of_missing (hnone : stock.find? (fun n => n.hash = h) = none) {m : Node} :
    Reached stock (h :: stack) m ↔ Reached stock stack m := by
  have hmissing : ∀ n ∈ stock, n.hash ≠ h := by simpa using hnone
  constructor
  · intro hm
    induction hm with
    | start hn hhash => exact .start hn ((List.mem_cons.1 hhash).resolve_left (hmissing _ hn))
    | child _ hn hlink ih => exact .child ih hn hlink
  · intro hm
    induction hm with
    | start hn hhash => exact .start hn (List.mem_cons_of_mem _ hhash)
    | child _ hn hlink ih => exact .child ih hn hlink

/-- Behind a node that was met, its children are looked for in what is left of the stock. -/
theorem reached_cons_of_found (distinct : (stock.map (·.hash)).Nodup) {n : Node}
    (hsome : stock.find? (fun n => n.hash = h) = some n) {m : Node} :
    Reached stock (h :: stack) m ↔ m = n ∨ Reached (without h stock) (n.children ++ stack) m := by
  have hn : n ∈ stock := List.mem_of_find?_eq_some hsome
  have hhash : n.hash = h := by simpa using List.find?_some hsome
  have hsame {k : Node} (hk : k ∈ stock) (hkh : k.hash = h) : k = n :=
    List.inj_on_of_nodup_map distinct hk hn (hkh.trans hhash.symm)
  constructor
  · intro hm
    induction hm with
    | @start k hk hstack =>
      by_cases hkh : k.hash = h
      · exact .inl (hsame hk hkh)
      · have hrest := (List.mem_cons.1 hstack).resolve_left hkh
        exact .inr (.start (mem_without.2 ⟨hk, hkh⟩) (List.mem_append_right _ hrest))
    | @child parent k _ hk hlink ih =>
      by_cases hkh : k.hash = h
      · exact .inl (hsame hk hkh)
      · right
        rcases ih with rfl | hparent
        · exact .start (mem_without.2 ⟨hk, hkh⟩) (List.mem_append_left _ hlink)
        · exact .child hparent (mem_without.2 ⟨hk, hkh⟩) hlink
  · rintro (rfl | hm)
    · exact .start hn (by simp [hhash])
    · induction hm with
      | start hk hstack =>
        rcases List.mem_append.1 hstack with hlink | hrest
        · exact .child (.start hn (by simp [hhash])) (mem_without.1 hk).1 hlink
        · exact .start (mem_without.1 hk).1 (List.mem_cons_of_mem _ hrest)
      | child _ hk hlink ih => exact .child ih (mem_without.1 hk).1 hlink

theorem mem_visit_iff (distinct : (stock.map (·.hash)).Nodup) {m : Node} :
    m ∈ visit stock stack ↔ Reached stock stack m := by
  induction stock, stack using visit.induct with
  | case1 stock => simpa [visit] using not_reached_nil
  | case2 stock h stack hnone ih =>
    rw [visit_of_missing hnone, reached_cons_of_missing hnone, ih distinct]
  | case3 stock h stack n hsome ih =>
    have hrest : ((without h stock).map (·.hash)).Nodup :=
      distinct.sublist (List.filter_sublist.map _)
    rw [visit_of_found hsome, reached_cons_of_found distinct hsome, List.mem_cons, ih hrest]

theorem mem_of_mem_visit {m : Node} (hm : m ∈ visit stock stack) : m ∈ stock := by
  induction stock, stack using visit.induct with
  | case1 stock => simp at hm
  | case2 stock h stack hnone ih =>
    rw [visit_of_missing hnone] at hm
    exact ih hm
  | case3 stock h stack n hsome ih =>
    rw [visit_of_found hsome] at hm
    rcases List.mem_cons.1 hm with rfl | hm
    · exact List.mem_of_find?_eq_some hsome
    · exact (mem_without.1 (ih hm)).1

/-- A hash leaves the stock when it is met, so no hash is met twice. -/
theorem nodup_visit (stock : List Node) (stack : List String) :
    ((visit stock stack).map (·.hash)).Nodup := by
  induction stock, stack using visit.induct with
  | case1 stock => simp
  | case2 stock h stack hnone ih => rwa [visit_of_missing hnone]
  | case3 stock h stack n hsome ih =>
    have hhash : n.hash = h := by simpa using List.find?_some hsome
    rw [visit_of_found hsome, List.map_cons, List.nodup_cons]
    refine ⟨fun hmem => ?_, ih⟩
    obtain ⟨m, hm, heq⟩ := List.mem_map.1 hmem
    exact (mem_without.1 (mem_of_mem_visit hm)).2 (heq.trans hhash)

namespace ChangeGraph

variable {g : ChangeGraph} {root : String} {n : Node}

/-- The leaves under a root are the stored ones that links lead to from there. -/
theorem mem_leaves_iff : n ∈ g.leaves root ↔ Reached g.nodes [root] n ∧ n.isLeaf := by
  rw [leaves, List.mem_filter, depthFirst, mem_visit_iff g.distinct]

theorem nodup_leaves (g : ChangeGraph) (root : String) : ((g.leaves root).map (·.hash)).Nodup :=
  (nodup_visit g.nodes [root]).sublist (List.filter_sublist.map _)

end ChangeGraph
end WorkloadDrift
