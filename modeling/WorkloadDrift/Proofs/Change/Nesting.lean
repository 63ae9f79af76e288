import WorkloadDrift.Proofs.Change.Storage
import WorkloadDrift.Proofs.Change.Walk
import WorkloadDrift.Proofs.Comparison.Drift

/-!
# The graph of nested changes

When changes spell out a tree in preorder, a walk from its root meets them in the
order in which they are stored, and nothing else is stored.
-/
namespace WorkloadDrift

namespace Drift

variable {digest : Digest}

theorem hashes_deltas (p : String) (f : Forest Drift) :
    hashes (deltas digest p f) = f.entries.map (hash digest) := by
  induction f generalizing p with
  | nil => rfl
  | cons d below rest ihBelow ihRest =>
    simpa [deltas, Forest.entries, hashes] using congrArg₂ _ (ihBelow _) (ihRest p)

theorem children_of_mem_deltas {p : String} {f : Forest Drift} :
    ∀ e ∈ deltas digest p f, e.node.children = [] := by
  induction f generalizing p with
  | nil => simp
  | cons d below rest ihBelow ihRest =>
    intro e he
    rcases List.mem_cons.1 he with rfl | he
    · rfl
    · exact (List.mem_append.1 he).elim (ihBelow e) (ihRest e)

theorem parentHash_of_mem_deltas {p : String} {f : Forest Drift} :
    ∀ e ∈ deltas digest p f, e.parentHash ∈ p :: hashes (deltas digest p f) := by
  induction f generalizing p with
  | nil => simp
  | cons d below rest ihBelow ihRest =>
    intro e he
    simp only [deltas, hashes, List.mem_cons, List.mem_append, List.map_cons, List.map_append] at *
    rcases he with rfl | he | he
    · exact .inl rfl
    · rcases ihBelow e he with h | h
      · exact .inr (.inl h)
      · exact .inr (.inr (.inl h))
    · rcases ihRest e he with h | h
      · exact .inl h
      · exact .inr (.inr (.inr h))

theorem parentsFirst_deltas {p : String} {f : Forest Drift} {known : List String} (hp : p ∈ known) :
    ParentsFirst known (deltas digest p f) := by
  induction f generalizing p known with
  | nil => trivial
  | cons d below rest ihBelow ihRest =>
    exact ⟨hp, (ihBelow (by simp)).append (ihRest (by simp [hp]))⟩

end Drift

/-- Nodes that stand in preorder for a forest with roots of given hashes. -/
inductive Laid : Forest Drift → List String → List Node → Prop
  | nil : Laid .nil [] []
  | cons {d : Drift} {n : Node} {below others : Forest Drift} {roots : List String}
      {inside rest : List Node} :
      n.finding = d.finding → Laid below n.children inside → Laid others roots rest →
      Laid (.cons d below others) (n.hash :: roots) (n :: (inside ++ rest))

namespace Laid

variable {f : Forest Drift} {roots : List String} {nodes : List Node}

theorem length_roots (h : Laid f roots nodes) : roots.length = f.width := by
  induction h with
  | nil => rfl
  | cons _ _ _ _ ih => simp [Forest.width, ih]

theorem map_shape (h : Laid f roots nodes) :
    nodes.map Node.shape = f.preorder.map (Prod.map Drift.finding id) := by
  induction h with
  | nil => rfl
  | cons hfinding hinside _ ihInside ihRest =>
    simp [Forest.preorder, Node.shape, hfinding, hinside.length_roots, ← ihInside, ← ihRest]

/-- A walk from the roots meets the nodes in the order in which they stand. -/
theorem visit_append (h : Laid f roots nodes) {others : List Node} {stack : List String}
    (distinct : ((nodes ++ others).map (·.hash)).Nodup) :
    visit (nodes ++ others) (roots ++ stack) = nodes ++ visit others stack := by
  induction h generalizing others stack with
  | nil => rfl
  | @cons d n below forest roots inside rest _ _ _ ihInside ihRest =>
    obtain ⟨hn, hrest⟩ : n.hash ∉ (inside ++ (rest ++ others)).map (·.hash) ∧
        ((inside ++ (rest ++ others)).map (·.hash)).Nodup := by
      rw [List.cons_append, List.append_assoc] at distinct
      exact List.nodup_cons.1 distinct
    have hstock : without n.hash (n :: (inside ++ (rest ++ others))) = inside ++ (rest ++ others) := by
      rw [without, List.filter_cons_of_neg (by simp), List.filter_eq_self]
      exact fun m hm => decide_eq_true fun h => hn (List.mem_map.2 ⟨m, hm, h⟩)
    have hvisit : visit (n :: (inside ++ (rest ++ others))) (n.hash :: (roots ++ stack)) =
        n :: visit (inside ++ (rest ++ others)) (n.children ++ (roots ++ stack)) := by
      rw [visit_of_found (List.find?_cons_of_pos (by simp)), hstock]
    have hafter : ((rest ++ others).map (·.hash)).Nodup := by
      rw [List.map_append] at hrest
      exact hrest.of_append_right
    calc visit (n :: (inside ++ rest) ++ others) (n.hash :: roots ++ stack)
        = n :: visit (inside ++ (rest ++ others)) (n.children ++ (roots ++ stack)) := by
          rw [List.cons_append, List.append_assoc]
          exact hvisit
      _ = n :: (inside ++ (rest ++ visit others stack)) := by rw [ihInside hrest, ihRest hafter]
      _ = n :: (inside ++ rest) ++ visit others stack := by simp

end Laid

namespace Drift

variable {digest : Digest}

theorem childHashes_deltas_eq_nil {p c : String} {f : Forest Drift}
    (hc : c ∉ p :: hashes (deltas digest p f)) : childHashes (deltas digest p f) c = [] :=
  childHashes_eq_nil fun e he heq => hc (heq ▸ parentHash_of_mem_deltas e he)

/-- The changes of a forest, stored with the children that come under them, are laid out. -/
theorem laid_deltas {p : String} {f : Forest Drift}
    (distinct : (p :: hashes (deltas digest p f)).Nodup) {children : String → List String}
    (hchildren : ∀ e ∈ deltas digest p f,
      children e.node.hash = childHashes (deltas digest p f) e.node.hash) :
    Laid f (childHashes (deltas digest p f) p) ((deltas digest p f).map (Delta.stored children)) := by
  induction f generalizing p with
  | nil => exact .nil
  | cons d below rest ihBelow ihRest =>
    set inside := deltas digest (d.hash digest) below with hinside
    set after := deltas digest p rest with hafter
    have hdeltas : deltas digest p (.cons d below rest) = d.delta digest p :: (inside ++ after) := rfl
    rw [hdeltas] at distinct hchildren ⊢
    have hsplit (c : String) : childHashes (d.delta digest p :: (inside ++ after)) c =
        (if p = c then [d.hash digest] else []) ++ (childHashes inside c ++ childHashes after c) := by
      by_cases hc : p = c <;> simp [childHashes, hashes, hc]
    obtain ⟨hp, hd, hdisjoint⟩ : p ∉ d.hash digest :: (hashes inside ++ hashes after) ∧
        d.hash digest ∉ hashes inside ++ hashes after ∧ (hashes inside ++ hashes after).Nodup := by
      simpa [hashes] using distinct
    obtain ⟨hinsideNodup, hafterNodup, hne⟩ := List.nodup_append.1 hdisjoint
    simp only [List.mem_cons, List.mem_append, not_or] at hp hd
    -- Only a change's own part of the list holds changes under its hash.
    have hroots : childHashes (d.delta digest p :: (inside ++ after)) p =
        d.hash digest :: childHashes after p := by
      rw [hsplit, if_pos rfl, childHashes_deltas_eq_nil (by simp [← hinside, hp.1, hp.2.1])]
      rfl
    have hown : children (d.hash digest) = childHashes inside (d.hash digest) := by
      have hself := hchildren (d.delta digest p) (by simp)
      rw [hash_delta] at hself
      rw [hself, hsplit, if_neg hp.1,
        childHashes_deltas_eq_nil (p := p) (by simp [← hafter, Ne.symm hp.1, hd.2])]
      simp
    have hwithin : ∀ e ∈ inside, children e.node.hash = childHashes inside e.node.hash := by
      intro e he
      have hmem : e.node.hash ∈ hashes inside := List.mem_map.2 ⟨e, he, rfl⟩
      have hpe : p ≠ e.node.hash := fun h => hp.2.1 (h ▸ hmem)
      rw [hchildren e (by simp [he]), hsplit, if_neg hpe,
        childHashes_deltas_eq_nil (p := p) (f := rest) (by
          simp only [List.mem_cons, not_or]
          exact ⟨Ne.symm hpe, fun h => hne _ hmem _ h rfl⟩)]
      simp
    have hbehind : ∀ e ∈ after, children e.node.hash = childHashes after e.node.hash := by
      intro e he
      have hmem : e.node.hash ∈ hashes after := List.mem_map.2 ⟨e, he, rfl⟩
      have hpe : p ≠ e.node.hash := fun h => hp.2.2 (h ▸ hmem)
      rw [hchildren e (by simp [he]), hsplit, if_neg hpe,
        childHashes_deltas_eq_nil (p := d.hash digest) (f := below) (by
          simp only [List.mem_cons, not_or]
          exact ⟨fun h => hd.2 (h ▸ hmem), fun h => hne _ h _ hmem rfl⟩)]
      rfl
    have hbelow := ihBelow (List.nodup_cons.2 ⟨hd.1, hinsideNodup⟩) hwithin
    rw [← hinside, ← hown] at hbelow
    have hrest := ihRest (List.nodup_cons.2 ⟨hp.2.2, hafterNodup⟩) hbehind
    rw [hroots, List.map_cons, List.map_append]
    exact .cons (n := (d.delta digest p).stored children) rfl hbelow hrest

end Drift

namespace ChangeGraph

/-- The graph of a tree of changes holds the tree in preorder, and a walk from the root meets all of
it. -/
theorem ofDeltas_tree {digest : Digest} {d : Drift} {below : Forest Drift}
    (distinct : ("" :: (Forest.cons d below .nil).entries.map (Drift.hash digest)).Nodup) :
    let g := ofDeltas (Drift.deltas digest "" (.cons d below .nil))
    g.depthFirst (d.hash digest) = g.nodes ∧
      g.nodes.map Node.shape =
        (Forest.cons d below .nil).preorder.map (Prod.map Drift.finding id) := by
  intro g
  set tree := Forest.cons d below .nil with htree
  rw [← Drift.hashes_deltas ""] at distinct
  have hnodes : g.nodes = (Drift.deltas digest "" tree).map
      (Delta.stored (childHashes (Drift.deltas digest "" tree))) :=
    nodes_ofDeltas (Drift.parentsFirst_deltas (by simp)) distinct Drift.children_of_mem_deltas
  have hlaid : Laid tree (childHashes (Drift.deltas digest "" tree) "") g.nodes := by
    rw [hnodes]
    exact Drift.laid_deltas distinct fun _ _ => rfl
  have hroots : childHashes (Drift.deltas digest "" tree) "" = [d.hash digest] := by
    have hblank := (List.nodup_cons.1 distinct).1
    have hbelow : childHashes (Drift.deltas digest (d.hash digest) below) "" = [] :=
      Drift.childHashes_deltas_eq_nil (by simpa [htree, Drift.deltas, hashes] using hblank)
    simpa [htree, Drift.deltas, childHashes, hashes] using hbelow
  rw [hroots] at hlaid
  constructor
  · have hvisit : visit (g.nodes ++ []) ([d.hash digest] ++ []) = g.nodes ++ visit [] [] :=
      hlaid.visit_append (by simpa using g.distinct)
    simpa [depthFirst, visit] using hvisit
  · exact hlaid.map_shape

end ChangeGraph
end WorkloadDrift
