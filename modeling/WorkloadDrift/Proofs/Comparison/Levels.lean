import WorkloadDrift.Proofs.Change.Tree
import WorkloadDrift.Proofs.Comparison.Enumeration

/-!
# The change graph is a tree

An outline descends level by level. So its changes are stored as a tree, unless
two of them have one text: then the later one takes the place of the other. Names
without slashes rule that out; names with slashes do not.
-/
namespace WorkloadDrift

theorem PartSite.levelsFrom_outline {α : Type} [DecidableEq α] {s : PartSite α}
    {inside : α → α → String → Forest Drift} {latest baseline : Named α}
    (hinside : ∀ new old path, (inside new old path).LevelsFrom Drift.level (s.part.level + 1)) :
    (s.outline inside latest baseline).LevelsFrom Drift.level s.part.level := by
  apply Forest.LevelsFrom.flatMap
  rintro ⟨name, _ | new, _ | old⟩ _
  · trivial
  · exact Forest.levelsFrom_leaf rfl
  · exact Forest.levelsFrom_leaf rfl
  · rw [outlineAt]
    split
    · trivial
    · exact ⟨rfl, hinside new old _, trivial⟩

theorem Resource.levelsFrom_outline (latest baseline : Resource) (path : String) :
    (latest.outline baseline path).LevelsFrom Drift.level leafLevel := by
  apply Forest.LevelsFrom.flatMap
  intro f _
  exact Forest.levelsFrom_leaf rfl

theorem Namespace.levelsFrom_outline (latest baseline : Namespace) (path : String) :
    (latest.outline baseline path).LevelsFrom Drift.level 3 := by
  apply Forest.LevelsFrom.flatMap
  intro kind _
  exact PartSite.levelsFrom_outline (s := .ofResource kind path) Resource.levelsFrom_outline

theorem Cluster.levelsFrom_outline (latest baseline : Cluster) (path : String) :
    (latest.outline baseline path).LevelsFrom Drift.level 2 :=
  PartSite.levelsFrom_outline (s := .ofNamespace path) Namespace.levelsFrom_outline

theorem Workload.levelsFrom_outline (latest baseline : Workload) :
    (latest.outline baseline).LevelsFrom Drift.level 0 := by
  rw [Workload.outline]
  split
  · trivial
  · exact ⟨rfl, PartSite.levelsFrom_outline (s := .ofCluster rootPath) Cluster.levelsFrom_outline,
      trivial⟩

variable {digest : Digest} {latest baseline : Workload}

theorem Comparison.hashes_deltas_eq (separates : digest.SeparatesValues (latest.hashed baseline)) :
    hashes (deltas digest latest baseline) = ((latest.outline baseline).texts digest).map digest := by
  rw [deltas_eq separates, Drift.hashes_deltas, Forest.texts, List.map_map]
  rfl

/-- As long as no two changes have one text, each is stored as its own node, and the nodes are a
tree; this is so for names without slashes. Two changes with one text are stored under one hash. -/
theorem difference_isTree_iff (hex : digest.Hexadecimal)
    (separates : digest.Separates (latest.digested digest baseline)) :
    let changes := Comparison.deltas digest latest baseline
    let g := difference digest latest baseline
    ((hashes changes).Nodup ∧ g.nodes.map (·.hash) = hashes changes ∧
        g.IsTree (latest.contentHash digest) ↔
      ((latest.outline baseline).texts digest).Nodup) ∧
    (latest.PlainNames → baseline.PlainNames →
      ((latest.outline baseline).texts digest).Nodup) := by
  intro changes g
  have hvalues : digest.SeparatesValues (latest.hashed baseline) :=
    separates.mono fun s hs => List.mem_append_left _ hs
  have hchanges : changes = Drift.deltas digest "" (latest.outline baseline) :=
    Comparison.deltas_eq hvalues
  have hhashes : hashes changes = ((latest.outline baseline).texts digest).map digest :=
    Comparison.hashes_deltas_eq hvalues
  refine ⟨⟨fun h => ?_, fun distinct => ?_⟩, Workload.nodup_texts hex⟩
  · rw [hhashes] at h
    exact h.1.of_map
  · have hnodup : ("" :: hashes changes).Nodup := by
      have h := Workload.nodup_hashes hex distinct separates
      rwa [← Drift.hashes_deltas "", ← hchanges] at h
    have hstored : g.nodes = changes.map (Delta.stored (childHashes changes)) := by
      apply ChangeGraph.nodes_ofDeltas _ hnodup
      · rw [hchanges]
        exact Drift.children_of_mem_deltas
      · rw [hchanges]
        exact Drift.parentsFirst_deltas (by simp)
    have htree : (ChangeGraph.ofDeltas changes).IsTree (latest.contentHash digest) := by
      have hlevels := latest.levelsFrom_outline baseline
      rw [hchanges] at hnodup ⊢
      by_cases heq : latest = baseline
      · rw [Workload.outline, if_pos heq]
        exact ChangeGraph.isTree_empty _
      · rw [Workload.outline, if_neg heq] at hnodup hlevels ⊢
        exact ChangeGraph.isTree_ofDeltas hnodup hlevels
    exact ⟨(List.nodup_cons.1 hnodup).2, by rw [hstored, map_hash_stored], htree⟩

/-- A cluster without any resources, by the names of its namespaces. -/
def Cluster.idle (namespaces : List String) : Cluster where
  namespaces := .ofList (namespaces.map fun name =>
    (name, ⟨.empty, .empty, .empty, .empty, .empty, .empty⟩))

/-- A colon in a name, or a slash as long as no other path reads the same, does no harm. -/
theorem difference_isTree_iff_named :
    let latest : Workload := ⟨Named.empty.insert "arn:eks:1:cluster/prod" (.idle ["n", "n/d"])⟩
    let baseline : Workload := ⟨Named.empty.insert "arn:eks:1:cluster/prod" (.idle ["n", "m:1"])⟩
    ((latest.outline baseline).texts .spelled).Nodup ∧
      (hashes (Comparison.deltas .spelled latest baseline)).Nodup ∧
      (difference .spelled latest baseline).IsTree (latest.contentHash .spelled) := by
  intro latest baseline
  have distinct : ((latest.outline baseline).texts .spelled).Nodup := by decide +kernel
  obtain ⟨hchanges, -, htree⟩ := (@difference_isTree_iff .spelled latest baseline
    Digest.hexadecimal_spelled (Digest.separates_spelled _)).1.2 distinct
  exact ⟨distinct, hchanges, htree⟩

/-- Two clusters whose names with slashes lead to one path for namespaces of either: under any
digest two of the five changes share a hash, and one of them is lost. -/
theorem difference_sharesNode_slashed :
    let latest : Workload := ⟨(Named.empty.insert "x" (.idle ["y/namespace/z"])).insert
      "x/namespace/y" (.idle ["z"])⟩
    let baseline : Workload := ⟨(Named.empty.insert "x" (.idle [])).insert "x/namespace/y" (.idle [])⟩
    (∀ digest : Digest, digest.Separates (latest.digested digest baseline) →
      let changes := Comparison.deltas digest latest baseline
      changes.length = 5 ∧ ¬ (hashes changes).Nodup ∧ (difference digest latest baseline).size < 5) ∧
    (difference .spelled latest baseline).size < 5 := by
  intro latest baseline
  have hshared (digest : Digest) (separates : digest.Separates (latest.digested digest baseline)) :
      let changes := Comparison.deltas digest latest baseline
      changes.length = 5 ∧ ¬ (hashes changes).Nodup ∧
        (difference digest latest baseline).size < 5 := by
    intro changes
    have hhashes : hashes changes = ((latest.outline baseline).texts digest).map digest :=
      Comparison.hashes_deltas_eq (separates.mono fun s hs => List.mem_append_left _ hs)
    have htexts : ((latest.outline baseline).texts digest).length = 5 := by
      rw [Forest.texts, List.length_map]
      decide +kernel
    have hlength : changes.length = 5 := by
      have h := congrArg List.length hhashes
      rwa [List.length_map, htexts, hashes, List.length_map] at h
    have hrepeated : ¬ (hashes changes).Nodup := by
      rw [hhashes]
      intro h
      exact List.nodup_iff_getElem?_ne_getElem?.1 h.of_map 2 4 (by decide) (by omega) rfl
    have hsize : (difference digest latest baseline).size < changes.length :=
      ChangeGraph.size_ofDeltas_lt hrepeated
    exact ⟨hlength, hrepeated, by omega⟩
  exact ⟨hshared, (hshared .spelled (Digest.separates_spelled _)).2.2⟩

end WorkloadDrift
