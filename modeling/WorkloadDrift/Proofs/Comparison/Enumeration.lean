import WorkloadDrift.Proofs.Change.Nesting
import WorkloadDrift.Proofs.Comparison.Agreement
import WorkloadDrift.Proofs.Comparison.Identity

/-!
# The change graph is the outline

A comparison by digests stores the differences that a comparison by value finds,
in the same order and hanging together in the same way.
-/
namespace WorkloadDrift

/-- The texts that are digested when two snapshots are compared: of the values that face each other,
and of the changes. -/
def Workload.digested (digest : Digest) (latest baseline : Workload) : List String :=
  (latest.hashed baseline).map Json.canonical ++ (latest.outline baseline).texts digest

variable {digest : Digest} {latest baseline : Workload}

theorem Workload.nodup_hashes (hex : digest.Hexadecimal)
    (distinct : ((latest.outline baseline).texts digest).Nodup)
    (separates : digest.Separates (latest.digested digest baseline)) :
    ("" :: (latest.outline baseline).entries.map (Drift.hash digest)).Nodup := by
  have hhashes : (latest.outline baseline).entries.map (Drift.hash digest) =
      ((latest.outline baseline).texts digest).map digest := by
    rw [Forest.texts, List.map_map]
    rfl
  rw [hhashes, List.nodup_cons]
  refine ⟨fun hmem => ?_, ?_⟩
  · obtain ⟨text, -, htext⟩ := List.mem_map.1 hmem
    exact hex.ne_empty text htext
  · exact (separates.mono fun s hs => List.mem_append_right _ hs).nodup_map distinct

/-- Where no two changes have one text, the graph of the differences holds those of the outline in
preorder and no others, and a walk from its root meets them so. -/
theorem difference_preorder (hex : digest.Hexadecimal)
    (distinct : ((latest.outline baseline).texts digest).Nodup)
    (separates : digest.Separates (latest.digested digest baseline)) :
    let g := difference digest latest baseline
    g.depthFirst (latest.contentHash digest) = g.nodes ∧
      g.nodes.map Node.shape =
        (latest.outline baseline).preorder.map (Prod.map Drift.finding id) := by
  have hdeltas := Comparison.deltas_eq (separates.mono fun s hs => List.mem_append_left _ hs)
  have hhashes := Workload.nodup_hashes hex distinct separates
  rw [difference, hdeltas]
  by_cases heq : latest = baseline
  · rw [Workload.outline, if_pos heq]
    simp [ChangeGraph.ofDeltas, ChangeGraph.empty, ChangeGraph.depthFirst, visit, Forest.preorder]
  · rw [Workload.outline, if_neg heq] at hhashes ⊢
    exact ChangeGraph.ofDeltas_tree hhashes

/-- Names without slashes keep the changes apart, so a comparison by digests comes to the graph of
the outline; it is empty for equal snapshots. -/
theorem difference_eq_outline (hex : digest.Hexadecimal) (hlatest : latest.PlainNames)
    (hbaseline : baseline.PlainNames)
    (separates : digest.Separates (latest.digested digest baseline)) :
    (latest = baseline → difference digest latest baseline = .empty) ∧
    (latest ≠ baseline →
      let g := difference digest latest baseline
      g.depthFirst (latest.contentHash digest) = g.nodes ∧
        g.nodes.map Node.shape =
          (latest.outline baseline).preorder.map (Prod.map Drift.finding id)) := by
  constructor
  · rintro rfl
    simp [difference, Comparison.deltas, ChangeGraph.ofDeltas]
  · exact fun _ => difference_preorder hex (Workload.nodup_texts hex hlatest hbaseline) separates

/-- A snapshot with one deployment. -/
def Workload.running (r : Resource) : Workload :=
  ⟨Named.empty.insert "c" ⟨Named.empty.insert "n"
    ⟨Named.empty.insert "d" r, .empty, .empty, .empty, .empty, .empty⟩⟩⟩

def FileEvent.copying (source destination : String) : FileEvent :=
  ⟨"", ⟨"", ""⟩, source, destination, 0, 0⟩

/-- A new cluster is one childless node. In the deployment a field changes, an empty entry hides
what it faces, and an event too many goes field by field. -/
theorem difference_eq_outline_running :
    (let latest : Workload := ⟨Named.empty.insert "a" ⟨.empty⟩⟩
      let g := difference Sha256.hexDigest latest ⟨.empty⟩
      g.depthFirst (latest.contentHash Sha256.hexDigest) = g.nodes ∧
        g.nodes.map Node.shape =
          [(⟨.workload, "workload", 0, none, none, {}⟩, 1),
            (⟨.cluster, "workload/cluster/a", 1, none, none, { insert := ["a"] }⟩, 0)]) ∧
    (let latest := Workload.running (.accessing [some (.copying "x" "y"), none])
      let baseline := Workload.running
        (.accessing [some (.copying "x" "z"), some (.copying "u" "v"), some (.copying "y" "")])
      let g := difference .spelled latest baseline
      g.depthFirst (latest.contentHash .spelled) = g.nodes ∧
        (g.nodes.map Node.shape).map
            (fun s => (s.1.level, s.1.change.insert, s.1.change.remove, s.2)) =
          [(0, [], [], 1), (1, [], [], 1), (2, [], [], 1), (3, [], [], 2),
            (4, ["y"], ["z"], 0), (4, [], ["y"], 0)]) := by
  constructor
  · intro latest g
    have h := (@difference_eq_outline Sha256.hexDigest latest ⟨.empty⟩ Sha256.hexadecimal
      (by decide) (by decide) (by decide +kernel)).2 (by decide)
    exact ⟨h.1, h.2.trans (by decide)⟩
  · intro latest baseline g
    have h := (@difference_eq_outline .spelled latest baseline
      Digest.hexadecimal_spelled (by decide) (by decide) (Digest.separates_spelled _)).2 (by decide)
    refine ⟨h.1, ?_⟩
    rw [h.2]
    decide +kernel

end WorkloadDrift
