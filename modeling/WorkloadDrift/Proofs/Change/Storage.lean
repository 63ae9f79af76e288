import Mathlib.Data.List.Nodup
import WorkloadDrift.Comparison
import WorkloadDrift.Change.Traversal

/-!
# Storing changes

Changes with hashes of their own, each after the one that it belongs under, are
stored in the order in which they come, each with the hashes of those right
below it.
-/
namespace WorkloadDrift

def hashes (deltas : List Delta) : List String := deltas.map (·.node.hash)

@[simp] theorem hashes_append (ds es : List Delta) : hashes (ds ++ es) = hashes ds ++ hashes es := by
  simp [hashes]

/-- The hashes of the changes right below a hash. -/
def childHashes (deltas : List Delta) (h : String) : List String :=
  hashes (deltas.filter fun d => d.parentHash = h)

theorem childHashes_subset (deltas : List Delta) (h : String) :
    ∀ c ∈ childHashes deltas h, c ∈ hashes deltas := by
  intro c hc
  obtain ⟨d, hd, rfl⟩ := List.mem_map.1 hc
  exact List.mem_map.2 ⟨d, List.mem_of_mem_filter hd, rfl⟩

theorem childHashes_eq_nil {deltas : List Delta} {h : String}
    (hnone : ∀ d ∈ deltas, d.parentHash ≠ h) : childHashes deltas h = [] := by
  simpa [childHashes, hashes] using hnone

/-- A change as it is stored, with given child hashes. -/
def Delta.stored (children : String → List String) (d : Delta) : Node :=
  { d.node with parentHash := d.parentHash, children := children d.node.hash }

@[simp] theorem Delta.hash_stored (children : String → List String) (d : Delta) :
    (d.stored children).hash = d.node.hash := rfl

theorem map_hash_stored (children : String → List String) (deltas : List Delta) :
    (deltas.map (Delta.stored children)).map (·.hash) = hashes deltas := by
  simp [hashes, Function.comp_def]

/-- Whether the parent of each change is known before the change comes. -/
def ParentsFirst : List String → List Delta → Prop
  | _, [] => True
  | known, d :: deltas => d.parentHash ∈ known ∧ ParentsFirst (d.node.hash :: known) deltas

theorem ParentsFirst.mono {known known' : List String} {deltas : List Delta}
    (hsub : ∀ h ∈ known, h ∈ known') (h : ParentsFirst known deltas) : ParentsFirst known' deltas := by
  induction deltas generalizing known known' with
  | nil => trivial
  | cons d deltas ih =>
    refine ⟨hsub _ h.1, ih (fun c hc => ?_) h.2⟩
    rcases List.mem_cons.1 hc with rfl | hc
    · simp
    · exact List.mem_cons_of_mem _ (hsub c hc)

theorem ParentsFirst.append {known : List String} {ds es : List Delta} (hds : ParentsFirst known ds)
    (hes : ParentsFirst known es) : ParentsFirst known (ds ++ es) := by
  induction ds generalizing known with
  | nil => exact hes
  | cons d ds ih => exact ⟨hds.1, ih hds.2 (hes.mono fun c hc => by simp [hc])⟩

namespace ChangeGraph

theorem storeNode_of_not_mem {n : Node} {nodes : List Node} (h : n.hash ∉ nodes.map (·.hash)) :
    storeNode n nodes = nodes ++ [n] := by
  induction nodes with
  | nil => rfl
  | cons m nodes ih =>
    simp only [List.map_cons, List.mem_cons, not_or] at h
    rw [storeNode, if_neg (Ne.symm h.1), ih h.2]
    rfl

theorem nodes_store {g : ChangeGraph} {n : Node} (hnew : n.hash ∉ g.nodes.map (·.hash)) :
    (g.store n).nodes = g.nodes ++ [n] := storeNode_of_not_mem hnew

theorem nodes_linkNew {g : ChangeGraph} {p child : String} (hp : p ∈ g.nodes.map (·.hash))
    (hchild : ∀ m ∈ g.nodes, child ∉ m.children) :
    (g.linkNew p child).nodes = g.nodes.map fun m => if m.hash = p then m.addChild child else m := by
  obtain ⟨m, hm, hhash⟩ := List.mem_map.1 hp
  unfold linkNew get?
  split
  · next hnone =>
    rw [List.find?_eq_none] at hnone
    exact absurd hhash (by simpa using hnone m hm)
  · next parent hsome =>
    rw [if_neg (hchild parent (List.mem_of_find?_eq_some hsome))]
    rfl

/-- What adding a node with a new hash does: it comes last, and the parent has one more child. -/
theorem nodes_add {g : ChangeGraph} {n : Node} {p : String} (hnew : n.hash ∉ g.nodes.map (·.hash))
    (hself : n.hash ≠ p) (hp : p = "" ∨ p ∈ g.nodes.map (·.hash))
    (hchildren : ∀ m ∈ g.nodes, n.hash ∉ m.children) (hnamed : ∀ m ∈ g.nodes, m.hash ≠ "")
    (hchildless : n.children = []) :
    (g.add n p).nodes =
      g.nodes.map (fun m => if m.hash = p then m.addChild n.hash else m) ++
        [{ n with parentHash := p }] := by
  have hstored : (g.store { n with parentHash := p }).nodes =
      g.nodes ++ [{ n with parentHash := p }] := nodes_store hnew
  unfold add
  split
  · next hblank =>
    subst hblank
    have hnone : g.nodes.map (fun m => if m.hash = "" then m.addChild n.hash else m) =
        g.nodes.map id := List.map_congr_left fun m hm => if_neg (hnamed m hm)
    rw [hnone, List.map_id]
    exact hstored
  · next hblank =>
    rw [nodes_linkNew, hstored, List.map_append]
    · simp [hself]
    · rw [hstored]
      simp [hp.resolve_left hblank]
    · rw [hstored]
      intro m hm
      rcases List.mem_append.1 hm with hm | hm
      · exact hchildren m hm
      · rw [List.mem_singleton.1 hm]
        simp [hchildless]

theorem stored_snoc (ds : List Delta) (d e : Delta) :
    e.stored (childHashes (ds ++ [d])) =
      if e.node.hash = d.parentHash then (e.stored (childHashes ds)).addChild d.node.hash
      else e.stored (childHashes ds) := by
  by_cases hparent : d.parentHash = e.node.hash
  · simp [Delta.stored, Node.addChild, childHashes, hashes, hparent]
  · simp [Delta.stored, childHashes, hashes, hparent, Ne.symm hparent]

/-- The graph after some changes: they stand in the order in which they came, with the children that
they have so far. -/
structure Holds (g : ChangeGraph) (done : List Delta) : Prop where
  nodes : g.nodes = done.map (Delta.stored (childHashes done))
  parents : ∀ d ∈ done, d.parentHash ∈ "" :: hashes done
  distinct : ("" :: hashes done).Nodup

namespace Holds

variable {g : ChangeGraph} {done : List Delta}

theorem hashes_eq (h : g.Holds done) : g.nodes.map (·.hash) = hashes done := by
  rw [h.nodes, map_hash_stored]

/-- A new change under a known one comes last, and has no children yet. -/
theorem add (h : g.Holds done) {d : Delta} (hparent : d.parentHash ∈ "" :: hashes done)
    (hnew : d.node.hash ∉ "" :: hashes done) (childless : d.node.children = []) :
    (g.add d.node d.parentHash).Holds (done ++ [d]) := by
  have hknown : ∀ c ∈ "" :: hashes done, c ∈ "" :: hashes (done ++ [d]) := by
    intro c hc
    rw [hashes_append, ← List.cons_append]
    exact List.mem_append_left _ hc
  have hparents : ∀ e ∈ done ++ [d], e.parentHash ∈ "" :: hashes done := by
    intro e he
    rcases List.mem_append.1 he with he | he
    · exact h.parents e he
    · rwa [List.mem_singleton.1 he]
  refine ⟨?_, fun e he => hknown _ (hparents e he), ?_⟩
  · have hadd := nodes_add (g := g) (n := d.node) (p := d.parentHash)
      (fun hmem => hnew (List.mem_cons_of_mem _ (h.hashes_eq ▸ hmem)))
      (fun heq => hnew (heq ▸ hparent)) (by simpa [h.hashes_eq] using hparent)
      (by
        rw [h.nodes, List.forall_mem_map]
        exact fun e _ hmem => hnew (List.mem_cons_of_mem _ (childHashes_subset done _ _ hmem)))
      (by
        intro m hm hblank
        have hmem : m.hash ∈ hashes done := h.hashes_eq ▸ List.mem_map_of_mem hm
        exact (List.nodup_cons.1 h.distinct).1 (hblank ▸ hmem))
      childless
    have hold : done.map (Delta.stored (childHashes (done ++ [d]))) =
        g.nodes.map fun m => if m.hash = d.parentHash then m.addChild d.node.hash else m := by
      rw [h.nodes, List.map_map]
      exact List.map_congr_left fun e _ => stored_snoc done d e
    have hlast : d.stored (childHashes (done ++ [d])) =
        { d.node with parentHash := d.parentHash } := by
      have hnone : childHashes (done ++ [d]) d.node.hash = [] :=
        childHashes_eq_nil fun e he heq => hnew (heq ▸ hparents e he)
      simp [Delta.stored, hnone, ← childless]
    rw [hadd, List.map_append, List.map_singleton, hold, hlast]
  · rw [hashes_append, ← List.cons_append]
    exact h.distinct.append (List.nodup_singleton _) (by simpa [hashes] using hnew)

theorem foldl_add (h : g.Holds done) {todo : List Delta}
    (hfirst : ParentsFirst ("" :: hashes done) todo) (distinct : ("" :: hashes (done ++ todo)).Nodup)
    (childless : ∀ d ∈ todo, d.node.children = []) :
    (todo.foldl (fun g d => g.add d.node d.parentHash) g).Holds (done ++ todo) := by
  induction todo generalizing g done with
  | nil => simpa using h
  | cons d todo ih =>
    obtain ⟨hparent, hrest⟩ := hfirst
    have hnew : d.node.hash ∉ "" :: hashes done := by
      rw [hashes_append, ← List.cons_append] at distinct
      exact fun hmem => (List.nodup_append.1 distinct).2.2 _ hmem _ (by simp [hashes]) rfl
    have hadd := h.add hparent hnew (childless d (by simp))
    have hknown : ∀ c ∈ d.node.hash :: "" :: hashes done, c ∈ "" :: hashes (done ++ [d]) := by
      intro c hc
      simp only [List.mem_cons, hashes_append, List.mem_append] at hc ⊢
      rcases hc with rfl | rfl | hc
      · exact .inr (.inr (by simp [hashes]))
      · exact .inl rfl
      · exact .inr (.inl hc)
    have hall := ih hadd (hrest.mono hknown) (by simpa using distinct)
      fun e he => childless e (by simp [he])
    simpa using hall

end Holds

/-- Changes with hashes of their own are stored in the order in which they come. -/
theorem nodes_ofDeltas {deltas : List Delta} (hfirst : ParentsFirst [""] deltas)
    (distinct : ("" :: hashes deltas).Nodup) (childless : ∀ d ∈ deltas, d.node.children = []) :
    (ofDeltas deltas).nodes = deltas.map (Delta.stored (childHashes deltas)) := by
  have hempty : empty.Holds [] := ⟨rfl, by simp, by simp [hashes]⟩
  have hall := hempty.foldl_add hfirst (by simpa using distinct) childless
  simpa [ofDeltas] using hall.nodes

end ChangeGraph
end WorkloadDrift
