import Mathlib.Data.List.Dedup
import WorkloadDrift.Proofs.Change.Nesting

/-!
# Trees of changes

Changes that spell out a forest in preorder, each one level under the change that
it belongs to, are stored as a tree: no node is lost, and each but the root has
one parent, which it names.
-/
namespace WorkloadDrift

namespace Forest

variable {α β : Type} (level : α → Int)

/-- Whether the roots stand on a level, and everything else one level under what it is right
below. -/
def LevelsFrom : Int → Forest α → Prop
  | _, nil => True
  | n, cons a below rest => level a = n ∧ LevelsFrom (n + 1) below ∧ LevelsFrom n rest

variable {level} {n : Int}

theorem LevelsFrom.append {f g : Forest α} (hf : f.LevelsFrom level n) (hg : g.LevelsFrom level n) :
    (f ++ g).LevelsFrom level n := by
  induction f with
  | nil => exact hg
  | cons a below rest _ ih => exact ⟨hf.1, hf.2.1, ih hf.2.2⟩

theorem LevelsFrom.flatMap {l : List β} {f : β → Forest α}
    (h : ∀ b ∈ l, (f b).LevelsFrom level n) : (Forest.flatMap l f).LevelsFrom level n := by
  induction l with
  | nil => trivial
  | cons b l ih =>
    rw [flatMap_cons]
    exact (h b (by simp)).append (ih fun c hc => h c (by simp [hc]))

theorem levelsFrom_leaf {a : α} (h : level a = n) : (leaf a).LevelsFrom level n :=
  ⟨h, trivial, trivial⟩

end Forest

namespace Drift

variable {digest : Digest}

def level (d : Drift) : Int := d.finding.level

/-- Every change of a forest is a root on the level of the roots, or stands one level under the
change that it names as its parent. -/
theorem level_of_mem_deltas {p : String} {f : Forest Drift} {n : Int} (h : f.LevelsFrom level n) :
    ∀ e ∈ deltas digest p f, (e.parentHash = p ∧ e.node.level = n) ∨
      ∃ d ∈ deltas digest p f, e.parentHash = d.node.hash ∧ e.node.level = d.node.level + 1 := by
  induction f generalizing p n with
  | nil => simp
  | cons d below rest ihBelow ihRest =>
    obtain ⟨hd, hbelow, hrest⟩ := h
    intro e he
    rw [deltas, List.mem_cons, List.mem_append] at he
    rcases he with rfl | he | he
    · exact .inl ⟨rfl, hd⟩
    · right
      rcases ihBelow hbelow e he with ⟨hparent, hlevel⟩ | ⟨c, hc, hparent, hlevel⟩
      · refine ⟨d.delta digest p, by simp [deltas], hparent, ?_⟩
        rw [hlevel, ← hd]
        rfl
      · exact ⟨c, by simp [deltas, hc], hparent, hlevel⟩
    · rcases ihRest hrest e he with hroot | ⟨c, hc, hparent, hlevel⟩
      · exact .inl hroot
      · exact .inr ⟨c, by simp [deltas, hc], hparent, hlevel⟩

end Drift

theorem mem_childHashes {deltas : List Delta} {c h : String} :
    c ∈ childHashes deltas h ↔ ∃ d ∈ deltas, d.parentHash = h ∧ d.node.hash = c := by
  simp [childHashes, hashes, and_assoc]

/-- Under hashes of their own, no change stands in the child lists of two others. -/
theorem nodup_flatMap_childHashes {deltas : List Delta} (distinct : (hashes deltas).Nodup) :
    (deltas.flatMap fun d => childHashes deltas d.node.hash).Nodup := by
  have hpairs : deltas.Pairwise fun d e => d.node.hash ≠ e.node.hash := List.pairwise_map.1 distinct
  apply List.nodup_flatMap.2
  constructor
  · intro d _
    exact distinct.sublist (List.filter_sublist.map _)
  · apply hpairs.imp
    intro d e hne c hd he
    obtain ⟨d', hd', hparent, rfl⟩ := mem_childHashes.1 hd
    obtain ⟨e', he', hparent', heq⟩ := mem_childHashes.1 he
    have hsame : e' = d' := List.inj_on_of_nodup_map distinct he' hd' heq
    rw [hsame] at hparent'
    exact hne (hparent.symm.trans hparent')

namespace ChangeGraph

theorem map_hash_linkNew (g : ChangeGraph) (h child : String) :
    (g.linkNew h child).nodes.map (·.hash) = g.nodes.map (·.hash) := by
  unfold linkNew
  split
  · rfl
  · split
    · rfl
    · rw [link, modify, List.map_map]
      apply List.map_congr_left
      intro n _
      dsimp only [Function.comp_apply]
      split <;> rfl

theorem mem_hashes_add {g : ChangeGraph} {n : Node} {p h : String} :
    h ∈ (g.add n p).nodes.map (·.hash) ↔ h = n.hash ∨ h ∈ g.nodes.map (·.hash) := by
  unfold add
  split
  · exact mem_hashes_storeNode
  · rw [map_hash_linkNew]
    exact mem_hashes_storeNode

theorem mem_hashes_ofDeltas {deltas : List Delta} {h : String} :
    h ∈ (ofDeltas deltas).nodes.map (·.hash) ↔ h ∈ hashes deltas := by
  have hfold (g : ChangeGraph) :
      h ∈ (deltas.foldl (fun g d => g.add d.node d.parentHash) g).nodes.map (·.hash) ↔
        h ∈ hashes deltas ∨ h ∈ g.nodes.map (·.hash) := by
    induction deltas generalizing g with
    | nil => simp [hashes]
    | cons d deltas ih => rw [List.foldl_cons, ih, mem_hashes_add, hashes, hashes, List.map_cons,
        List.mem_cons, or_left_comm, or_assoc]
  rw [ofDeltas, hfold]
  simp [empty]

theorem size_ofDeltas (deltas : List Delta) :
    (ofDeltas deltas).size = (hashes deltas).dedup.length := by
  have hperm : ((ofDeltas deltas).nodes.map (·.hash)).Perm (hashes deltas).dedup := by
    apply (List.perm_ext_iff_of_nodup (ofDeltas deltas).distinct (List.nodup_dedup _)).2
    intro h
    rw [mem_hashes_ofDeltas, List.mem_dedup]
  rw [← hperm.length_eq, List.length_map]
  rfl

/-- A change whose hash came up before takes the place of another one. -/
theorem size_ofDeltas_lt {deltas : List Delta} (h : ¬ (hashes deltas).Nodup) :
    (ofDeltas deltas).size < deltas.length := by
  have hlength : deltas.length = (hashes deltas).length := by simp [hashes]
  rw [size_ofDeltas, hlength]
  apply Nat.lt_of_le_of_ne (List.dedup_sublist _).length_le
  intro heq
  exact h ((List.dedup_sublist _).eq_of_length heq ▸ List.nodup_dedup _)

/-- A graph whose nodes form a tree under a hash. In the lists of children every other node stands
once, with the node that it names as its parent and one level below that; and a walk from the root
meets all nodes. -/
structure IsTree (g : ChangeGraph) (root : String) : Prop where
  root_level : ∀ n ∈ g.nodes, n.hash = root → n.level = 0
  root_free : root ∉ g.nodes.flatMap (·.children)
  child_once : ∀ n ∈ g.nodes, n.hash ≠ root → (g.nodes.flatMap (·.children)).count n.hash = 1
  child_of_parent : ∀ n ∈ g.nodes, n.hash ≠ root →
    ∃ parent ∈ g.nodes, parent.hash = n.parentHash ∧ n.hash ∈ parent.children
  child_level : ∀ n ∈ g.nodes, ∀ c ∈ n.children,
    ∃ child ∈ g.nodes, child.hash = c ∧ child.parentHash = n.hash ∧ child.level = n.level + 1
  reached : g.depthFirst root = g.nodes

theorem isTree_empty (root : String) : empty.IsTree root := by
  constructor <;> simp [empty, depthFirst, visit]

/-- The stored changes of a forest with one root on level zero are a tree. -/
theorem isTree_ofDeltas {digest : Digest} {d : Drift} {below : Forest Drift}
    (distinct : ("" :: hashes (Drift.deltas digest "" (.cons d below .nil))).Nodup)
    (levels : (Forest.cons d below .nil).LevelsFrom Drift.level 0) :
    (ofDeltas (Drift.deltas digest "" (.cons d below .nil))).IsTree (d.hash digest) := by
  set ds := Drift.deltas digest "" (.cons d below .nil) with hds
  have hnodes : (ofDeltas ds).nodes = ds.map (Delta.stored (childHashes ds)) :=
    nodes_ofDeltas (Drift.parentsFirst_deltas (by simp)) distinct Drift.children_of_mem_deltas
  have hchildren : (ofDeltas ds).nodes.flatMap (·.children) =
      ds.flatMap fun e => childHashes ds e.node.hash := by
    rw [hnodes, List.flatMap_map]
    rfl
  obtain ⟨hblank, hdistinct⟩ := List.nodup_cons.1 distinct
  -- Only the first change has no parent.
  have hcons : ds = d.delta digest "" :: Drift.deltas digest (d.hash digest) below := by
    rw [hds, Drift.deltas, Drift.deltas_nil, List.append_nil]
  have hnamed : ∀ e ∈ ds, e.node.hash ≠ "" := fun e he h => hblank (h ▸ List.mem_map_of_mem he)
  have hroot : ∀ e ∈ ds, e.node.hash = d.hash digest → e = d.delta digest "" := by
    intro e he h
    exact List.inj_on_of_nodup_map hdistinct he (by simp [hcons]) h
  have hparent : ∀ e ∈ ds, e.node.hash ≠ d.hash digest → e.parentHash ≠ "" := by
    intro e he hne hnone
    rw [hcons] at he
    rcases List.mem_cons.1 he with rfl | he
    · exact hne rfl
    · have hmem := Drift.parentHash_of_mem_deltas e he
      rw [hnone] at hmem
      exact hblank (by simpa [hcons, hashes] using hmem)
  have hlevel : ∀ e ∈ ds, (e.parentHash = "" ∧ e.node.level = 0) ∨
      ∃ c ∈ ds, e.parentHash = c.node.hash ∧ e.node.level = c.node.level + 1 :=
    Drift.level_of_mem_deltas levels
  constructor
  case root_level =>
    rw [hnodes, List.forall_mem_map]
    intro e he h
    rw [hroot e he h]
    exact levels.1
  case root_free =>
    rw [hchildren, List.mem_flatMap]
    rintro ⟨c, hc, hmem⟩
    obtain ⟨e, he, hpe, hhash⟩ := mem_childHashes.1 hmem
    rw [hroot e he hhash] at hpe
    exact hnamed c hc hpe.symm
  case child_once =>
    rw [hnodes, List.forall_mem_map, ← hnodes, hchildren]
    intro e he hne
    apply List.count_eq_one_of_mem (nodup_flatMap_childHashes hdistinct)
    rcases hlevel e he with ⟨hnone, -⟩ | ⟨c, hc, hpe, -⟩
    · exact absurd hnone (hparent e he hne)
    · exact List.mem_flatMap.2 ⟨c, hc, mem_childHashes.2 ⟨e, he, hpe, rfl⟩⟩
  case child_of_parent =>
    rw [hnodes, List.forall_mem_map]
    intro e he hne
    rcases hlevel e he with ⟨hnone, -⟩ | ⟨c, hc, hpe, -⟩
    · exact absurd hnone (hparent e he hne)
    · exact ⟨_, List.mem_map_of_mem hc, hpe.symm, mem_childHashes.2 ⟨e, he, hpe, rfl⟩⟩
  case child_level =>
    rw [hnodes, List.forall_mem_map]
    intro c hc h hmem
    obtain ⟨e, he, hpe, rfl⟩ := mem_childHashes.1 hmem
    refine ⟨_, List.mem_map_of_mem he, rfl, hpe, ?_⟩
    rcases hlevel e he with ⟨hnone, -⟩ | ⟨c', hc', hpe', hl⟩
    · exact absurd (hpe.symm.trans hnone) (hnamed c hc)
    · have hsame : c' = c := List.inj_on_of_nodup_map hdistinct hc' hc (hpe'.symm.trans hpe)
      rw [hsame] at hl
      exact hl
  case reached =>
    rw [Drift.hashes_deltas] at distinct
    exact (ofDeltas_tree distinct).1

end ChangeGraph
end WorkloadDrift
