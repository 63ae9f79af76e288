import WorkloadDrift.Proofs.Change.Path
import WorkloadDrift.Proofs.Comparison.Origin
import WorkloadDrift.Proofs.Report.Leaves

/-!
# Selecting a resource

A criterion on workloads is held against what the path of a leaf says of its
resource. Names are joined to a path as they are, so a slash in the name of a
cluster or a namespace moves all segments behind it. The resource is read back if
its name has no slash and the names above have an even number of them, or spell it
out by chance; and in no other case.
-/
namespace WorkloadDrift

def slashes (text : String) : Nat := text.toList.count '/'

/-- Where a resource stands in a snapshot. -/
structure ResourcePlace where
  cluster : String
  namespaceName : String
  kind : ResourceKind
  name : String

namespace ResourcePlace

variable (p : ResourcePlace)

/-- The path of the namespace. -/
def scope : String := rootPath ++ "/cluster/" ++ p.cluster ++ "/namespace/" ++ p.namespaceName

def path : String := p.scope ++ "/resource-type/" ++ p.kind.name ++ "/resource-name/" ++ p.name

/-- The text that admits the resource. -/
def workload : String := p.kind.name ++ "/" ++ p.name

/-- Whether the names above spell out kind and name of the resource themselves. -/
def IsEchoed : Prop :=
  p.name ≠ "resource-type" ∧ p.name ≠ "resource-name" ∧
    ChangePath.workload (p.scope ++ "/resource-type") = p.workload

/-- Whether kind and name can be read back from the paths below the resource. -/
structure Readable : Prop where
  named : p.name ≠ ""
  plain : PlainName p.name
  placed : Even (slashes p.cluster + slashes p.namespaceName) ∨ p.IsEchoed

/-- A kind holds no slash, so its name and that of a resource can be told apart. -/
theorem workload_eq_iff {kind : ResourceKind} {name : String} :
    p.workload = kind.name ++ "/" ++ name ↔ p.kind = kind ∧ p.name = name := by
  have hplain (kind : ResourceKind) : PlainName kind.name := by cases kind <;> decide
  have hkinds {k k' : ResourceKind} (h : k.name = k'.name) : k = k' := by
    cases k <;> cases k' <;> first | rfl | exact absurd h (by decide)
  constructor
  · intro h
    have hchars := congrArg String.toList h
    simp only [workload, String.toList_append, List.append_assoc] at hchars
    obtain ⟨hkind, hname⟩ := append_cons_inj (hplain p.kind) (hplain kind) hchars
    exact ⟨hkinds (String.toList_inj.1 hkind), String.toList_inj.1 hname⟩
  · rintro ⟨rfl, rfl⟩
    rfl

theorem readable_of_plain (hcluster : PlainName p.cluster)
    (hnamespace : PlainName p.namespaceName) (plain : PlainName p.name) (named : p.name ≠ "") :
    p.Readable := by
  refine ⟨named, plain, .inl ?_⟩
  rw [slashes, slashes, List.count_eq_zero.2 hcluster, List.count_eq_zero.2 hnamespace]
  decide

/-! ## Reading a resource back -/

open ChangePath hiding workload workload_eq_iff

theorem segments_scope : segments p.scope =
    "workload" :: "cluster" :: (segments p.cluster ++ "namespace" :: segments p.namespaceName) := by
  rw [scope, segments_key "/namespace/" "namespace" rfl (by decide),
    segments_key "/cluster/" "cluster" rfl (by decide), segments_of_plain (by decide : PlainName rootPath)]
  rfl

theorem even_length_scope : Even (segments p.scope).tail.length ↔
    Even (slashes p.cluster + slashes p.namespaceName) := by
  simp only [segments_scope, List.tail_cons, List.length_cons, List.length_append, length_segments,
    slashes]
  grind

variable {p}

/-- The segments of the path of a leaf below the resource. -/
theorem segments_leaf (plain : PlainName p.name) (category : EventCategory) {field : String}
    (hfield : PlainName field) :
    (segments (p.path ++ "/events/" ++ category.name ++ "/" ++ field)).tail =
      (segments p.scope).tail ++
        ["resource-type", p.kind.name, "resource-name", p.name, "events", category.name, field] := by
  have hkind : PlainName p.kind.name := by cases p.kind <;> decide
  have hcategory : PlainName category.name := by cases category <;> decide
  rw [segments_append, segments_key "/events/" "events" rfl (by decide), path,
    segments_key "/resource-name/" "resource-name" rfl (by decide),
    segments_key "/resource-type/" "resource-type" rfl (by decide), segments_of_plain plain,
    segments_of_plain hkind, segments_of_plain hcategory, segments_of_plain hfield]
  simp [segments_ne_nil]

/-- After an even number of segments the keys of the resource stand where keys are looked for. -/
theorem get?_leaf_of_even (even : Even (slashes p.cluster + slashes p.namespaceName))
    (plain : PlainName p.name) (category : EventCategory) {field : String} (hfield : PlainName field) :
    let path := p.path ++ "/events/" ++ category.name ++ "/" ++ field
    (info path).get? "resource-type" = some p.kind.name ∧
      (info path).get? "resource-name" = some p.name := by
  have hpairs := pairs_append (p.even_length_scope.2 even)
    ["resource-type", p.kind.name, "resource-name", p.name, "events", category.name, field]
  simp [get?_info, segments_leaf plain category hfield, hpairs, pairs, Named.lookup_cons]

/-- After an odd number of segments they stand where names are looked for, and the name of the
resource is taken for a key. -/
theorem get?_leaf_of_odd (odd : ¬ Even (slashes p.cluster + slashes p.namespaceName))
    (plain : PlainName p.name) (category : EventCategory) {field key : String}
    (hfield : PlainName field) (hkey : key = "resource-type" ∨ key = "resource-name") :
    (info (p.path ++ "/events/" ++ category.name ++ "/" ++ field)).get? key =
      if key = p.name then some "events" else (info (p.scope ++ "/resource-type")).get? key := by
  have habove : segments (p.scope ++ "/resource-type") = segments p.scope ++ ["resource-type"] := by
    rw [← segments_of_plain (by decide : PlainName "resource-type"), ← segments_append,
      String.append_assoc]
    rfl
  have heven : Even ((segments p.scope).tail ++ ["resource-type"]).length := by
    rw [List.length_append, List.length_singleton, Nat.even_add_one, even_length_scope]
    exact odd
  have hpairs := pairs_append heven
    [p.kind.name, "resource-name", p.name, "events", category.name, field]
  rw [List.append_assoc, List.singleton_append] at hpairs
  have hkind : key ≠ p.kind.name := by
    rcases hkey with rfl | rfl <;> cases p.kind <;> decide
  have hcategory : key ≠ category.name := by
    rcases hkey with rfl | rfl <;> cases category <;> decide
  rw [get?_info, get?_info, segments_leaf plain category hfield, hpairs, habove,
    List.tail_append_of_ne_nil (segments_ne_nil _)]
  simp [pairs, Named.lookup_cons, hkind, hcategory]

/-- The paths of leaves below a resource tell its kind and name exactly if it is readable. -/
theorem workload_leaf_iff (category : EventCategory) {field : String} (hfield : PlainName field) :
    ChangePath.workload (p.path ++ "/events/" ++ category.name ++ "/" ++ field) = p.workload ↔
      p.Readable := by
  have hkind : PlainName p.kind.name ∧ p.kind.name ≠ "" ∧ p.kind.name ≠ "events" := by
    cases p.kind <;> decide
  by_cases plain : PlainName p.name
  · by_cases even : Even (slashes p.cluster + slashes p.namespaceName)
    · obtain ⟨htype, hname⟩ := get?_leaf_of_even even plain category hfield
      rw [workload, ChangePath.workload_eq_iff hkind.1 hkind.2.1, htype, hname]
      exact ⟨fun h => ⟨h.1, plain, .inl even⟩, fun h => ⟨h.named, rfl, rfl⟩⟩
    · have hget {key : String} (hkey : key = "resource-type" ∨ key = "resource-name") :=
        get?_leaf_of_odd even plain category hfield hkey
      have hechoed : p.IsEchoed ↔ p.name ≠ "resource-type" ∧ p.name ≠ "resource-name" ∧ p.name ≠ "" ∧
          (info (p.scope ++ "/resource-type")).get? "resource-type" = some p.kind.name ∧
          (info (p.scope ++ "/resource-type")).get? "resource-name" = some p.name := by
        rw [IsEchoed, workload, ChangePath.workload_eq_iff hkind.1 hkind.2.1]
      rw [workload, ChangePath.workload_eq_iff hkind.1 hkind.2.1, hget (.inl rfl), hget (.inr rfl)]
      constructor
      · rintro ⟨named, htype, hname⟩
        by_cases heq : "resource-type" = p.name
        · rw [if_pos heq] at htype
          exact absurd (Option.some.inj htype).symm hkind.2.2
        · by_cases heq' : "resource-name" = p.name
          · rw [if_pos heq', ← heq'] at hname
            exact absurd (Option.some.inj hname) (by decide)
          · rw [if_neg heq] at htype
            rw [if_neg heq'] at hname
            exact ⟨named, plain, .inr (hechoed.2 ⟨Ne.symm heq, Ne.symm heq', named, htype, hname⟩)⟩
      · intro h
        obtain ⟨hne, hne', named, htype, hname⟩ := hechoed.1 (h.placed.resolve_left even)
        rw [if_neg (Ne.symm hne), if_neg (Ne.symm hne')]
        exact ⟨named, htype, hname⟩
  · rw [workload, ChangePath.workload_eq_iff hkind.1 hkind.2.1]
    exact ⟨fun h => absurd (plain_of_get?_info h.2.2) plain, fun h => absurd h.plain plain⟩

end ResourcePlace

/-! ## Leaves of a comparison -/

def Workload.resource? (w : Workload) (p : ResourcePlace) : Option Resource := do
  let cluster ← w.clusters.get? p.cluster
  let inside ← cluster.namespaces.get? p.namespaceName
  (inside.ofKind p.kind).get? p.name

/-- Whether a leaf tells a difference between the two states of the resource at a place. -/
def Node.Tells (n : Node) (latest baseline : Workload) (p : ResourcePlace) : Prop :=
  ∃ new old, latest.resource? p = some new ∧ baseline.resource? p = some old ∧
    ∃ f ∈ new.fieldDrifts old p.path, n.finding = f.finding

namespace Comparison

variable {digest : Digest} {d : Delta}

/-- A leaf that is found in a mapping is found inside an entry that stands on both sides. -/
theorem mem_inside_of_leaf {α : Type} {contentHash : α → String} {s : Site}
    {inside : α → α → (parentHash path : String) → List Delta} {latest baseline : Named α}
    (hleaf : d.node.level = leafLevel) (habove : s.level ≠ leafLevel)
    (hd : d ∈ compareNamed digest contentHash s inside latest baseline) :
    ∃ name new old p, latest.get? name = some new ∧ baseline.get? name = some old ∧
      d ∈ inside new old p (s.pathOf name) := by
  rcases mem_compareNamed hd with ⟨name, kind, content, change, -, rfl⟩ | hinside
  · exact absurd hleaf habove
  · exact hinside

theorem mem_compareEvents {latest baseline : Resource} {parentHash path : String}
    (hd : d ∈ compareEvents digest latest baseline parentHash path) :
    ∃ f ∈ latest.fieldDrifts baseline path, d.node.finding = f.finding := by
  rw [compareEvents_eq, Resource.outline, Drift.deltas_flatMap] at hd
  obtain ⟨f, hf, hd⟩ := List.mem_flatMap.1 hd
  obtain rfl := List.mem_singleton.1 hd
  exact ⟨f, hf, rfl⟩

theorem tells_of_mem_deltas {latest baseline : Workload} (hleaf : d.node.level = leafLevel)
    (hd : d ∈ deltas digest latest baseline) : ∃ p, d.node.Tells latest baseline p := by
  simp only [deltas] at hd
  split at hd
  · simp at hd
  · rcases List.mem_cons.1 hd with rfl | hd
    · exact absurd hleaf (by decide : (0 : Int) ≠ 4)
    · unfold compareClusters compareNamespaces compareResources at hd
      obtain ⟨cluster, newCluster, oldCluster, _, hnewCluster, holdCluster, hd⟩ :=
        mem_inside_of_leaf hleaf (by decide : (1 : Int) ≠ 4) hd
      obtain ⟨namespaceName, newNamespace, oldNamespace, _, hnewNamespace, holdNamespace, hd⟩ :=
        mem_inside_of_leaf hleaf (by decide : (2 : Int) ≠ 4) hd
      obtain ⟨kind, -, hd⟩ := List.mem_flatMap.1 hd
      obtain ⟨name, new, old, _, hnew, hold, hd⟩ :=
        mem_inside_of_leaf hleaf (by decide : (3 : Int) ≠ 4) hd
      refine ⟨⟨cluster, namespaceName, kind, name⟩, new, old, ?_, ?_, mem_compareEvents hd⟩
      · simp [Workload.resource?, hnewCluster, hnewNamespace, hnew]
      · simp [Workload.resource?, holdCluster, holdNamespace, hold]

end Comparison

/-- A leaf that tells a difference at a place has a path that tells the resource exactly if the
place is readable. -/
theorem Node.Tells.workload_iff {n : Node} {latest baseline : Workload} {p : ResourcePlace}
    (h : n.Tells latest baseline p) : ChangePath.workload n.path = p.workload ↔ p.Readable := by
  obtain ⟨new, old, -, -, f, hf, hfinding⟩ := h
  obtain ⟨category, -, hf⟩ := List.mem_flatMap.1 hf
  obtain ⟨⟨pair, index⟩, -, hf⟩ := List.mem_flatMap.1 hf
  obtain ⟨field, hfield, hf⟩ := List.mem_filterMap.1 hf
  obtain ⟨hpath, rfl⟩ := place_of_fieldDrift? hf
  have hplain : PlainName f.field := by
    have hfields : ∀ field ∈ category.comparedFields, PlainName field := by cases category <;> decide
    exact hfields f.field hfield
  have hleaf : n.path = p.path ++ "/events/" ++ category.name ++ "/" ++ f.field := by
    rw [← hpath]
    exact congrArg Finding.path hfinding
  rw [hleaf]
  exact ResourcePlace.workload_leaf_iff category hplain

/-! ## The criterion on one resource -/

/-- The criterion that admits the resources of a kind with a name. -/
def Criteria.onlyResource (kind : ResourceKind) (name : String) : Criteria where
  workloads := { literals := [kind.name ++ "/" ++ name] }

theorem Criteria.rejects_onlyResource {kind : ResourceKind} {name : String} {n : Node} :
    (onlyResource kind name).rejects n ↔ ChangePath.workload n.path ≠ kind.name ++ "/" ++ name := by
  have hfile : (n.file.map (onlyResource kind name).rejectsFile).getD false = false := by
    cases n.file <;> rfl
  have hnetwork : (n.network.map (onlyResource kind name).rejectsNetwork).getD false = false := by
    cases n.network <;> rfl
  rw [rejects, hfile, hnetwork]
  simp [onlyResource, PatternSet.isConfigured, PatternSet.admits]

namespace ChangeGraph

variable {g : ChangeGraph} {root : String} {c : Criteria}

/-- Where nothing was canceled before, criteria cancel what they reject and nothing else. -/
theorem mem_canceled_applyCriteria (hactive : g.canceled = []) {h : String} :
    h ∈ (g.applyCriteria root c).1.canceled ↔ ∃ n ∈ g.leaves root, c.rejects n ∧ n.hash = h := by
  have hrun := (Pass.filtering root c).mem_canceled_run g (h := h)
  rw [hactive, Pass.mem_targets_filtering] at hrun
  refine hrun.trans ⟨?_, ?_⟩
  · rintro (hnone | ⟨-, hrejected⟩)
    · cases hnone
    · exact hrejected
  · rintro ⟨n, hn, hrejected, hhash⟩
    exact .inr ⟨List.mem_map.2 ⟨n, mem_of_mem_visit (List.mem_of_mem_filter hn), hhash⟩,
      n, hn, hrejected, hhash⟩

theorem hash_mem_canceled_applyCriteria (hactive : g.canceled = []) {n : Node}
    (hn : n ∈ g.leaves root) : n.hash ∈ (g.applyCriteria root c).1.canceled ↔ c.rejects n := by
  rw [mem_canceled_applyCriteria hactive, ← Pass.mem_targets_filtering]
  exact Pass.hash_mem_targets_filtering g hn

end ChangeGraph

theorem canceled_difference (digest : Digest) (latest baseline : Workload) :
    (difference digest latest baseline).canceled = [] := by
  simp only [ChangeGraph.canceled, List.map_eq_nil_iff, List.filter_eq_nil_iff]
  intro n hn
  simp [(found_difference digest latest baseline n hn).active]

theorem exists_place_of_mem_leaves {digest : Digest} {latest baseline : Workload} {root : String}
    {n : Node} (hn : n ∈ (difference digest latest baseline).leaves root) :
    ∃ p, n.Tells latest baseline p := by
  obtain ⟨hmet, hleaf⟩ := List.mem_filter.1 hn
  obtain ⟨d, hd, -, hfinding⟩ := ChangeGraph.shows_ofDeltas _ n (mem_of_mem_visit hmet)
  have hlevel : d.node.level = leafLevel :=
    (congrArg Finding.level hfinding).symm.trans (of_decide_eq_true hleaf)
  obtain ⟨p, new, old, hnew, hold, f, hf, htold⟩ := Comparison.tells_of_mem_deltas hlevel hd
  exact ⟨p, new, old, hnew, hold, f, hf, hfinding.trans htold⟩

/-- The hashes that are canceled when a comparison is narrowed down to one resource. -/
def filteredOut (digest : Digest) (latest baseline : Workload) (kind : ResourceKind) (name : String) :
    List String :=
  ((difference digest latest baseline).applyCriteria (latest.contentHash digest)
    (.onlyResource kind name)).1.canceled

section Filtered

variable {digest : Digest} {latest baseline : Workload} {kind : ResourceKind} {name : String}

theorem mem_filteredOut {h : String} : h ∈ filteredOut digest latest baseline kind name ↔
    ∃ n ∈ Report.found digest latest baseline,
      ChangePath.workload n.path ≠ kind.name ++ "/" ++ name ∧ n.hash = h := by
  simp only [← Criteria.rejects_onlyResource]
  exact ChangeGraph.mem_canceled_applyCriteria (canceled_difference digest latest baseline)

theorem hash_mem_filteredOut {n : Node} (hn : n ∈ Report.found digest latest baseline) :
    n.hash ∈ filteredOut digest latest baseline kind name ↔
      ChangePath.workload n.path ≠ kind.name ++ "/" ++ name := by
  have hcanceled := canceled_difference digest latest baseline
  exact (ChangeGraph.hash_mem_canceled_applyCriteria hcanceled hn).trans Criteria.rejects_onlyResource

end Filtered

/-- The criterion on one resource cancels leaves only. A leaf of a readable place, as all are whose
names have no slashes, is canceled exactly if its resource has another kind or name. A leaf of any
other place is canceled even if its resource is the one that is asked for. -/
theorem filteredOut_iff_of_readable (digest : Digest) (latest baseline : Workload) :
    (∀ kind name, ∀ h ∈ filteredOut digest latest baseline kind name,
      h ∈ (Report.found digest latest baseline).map (·.hash)) ∧
    (∀ p : ResourcePlace, PlainName p.cluster → PlainName p.namespaceName → PlainName p.name →
      p.name ≠ "" → p.Readable) ∧
    ∀ n ∈ Report.found digest latest baseline, (∃ p, n.Tells latest baseline p) ∧
      ∀ p, n.Tells latest baseline p →
        (ChangePath.workload n.path = p.workload ↔ p.Readable) ∧
        (p.Readable → ∀ kind name, n.hash ∈ filteredOut digest latest baseline kind name ↔
          p.kind ≠ kind ∨ p.name ≠ name) ∧
        (¬ p.Readable → n.hash ∈ filteredOut digest latest baseline p.kind p.name) := by
  refine ⟨fun kind name h hh => ?_, fun p => p.readable_of_plain, fun n hn => ?_⟩
  · obtain ⟨n, hn, -, rfl⟩ := mem_filteredOut.1 hh
    exact List.mem_map_of_mem hn
  · refine ⟨exists_place_of_mem_leaves hn, fun p hp => ⟨hp.workload_iff, ?_, ?_⟩⟩
    · intro hreadable kind name
      rw [hash_mem_filteredOut hn, hp.workload_iff.2 hreadable, Ne, p.workload_eq_iff, not_and_or]
    · intro hunreadable
      rw [hash_mem_filteredOut hn]
      exact fun h => hunreadable (hp.workload_iff.1 h)

/-- A snapshot with one deployment in a cluster of a given name. -/
def Workload.runningIn (cluster : String) (r : Resource) : Workload :=
  ⟨Named.empty.insert cluster ⟨Named.empty.insert "n"
    ⟨Named.empty.insert "d" r, .empty, .empty, .empty, .empty, .empty⟩⟩⟩

/-- One slash in the name of the cluster takes a deployment out of the report that asks for it, under
any digest that keeps the changes apart. -/
theorem filteredOut_resource_slashed :
    let place : ResourcePlace := ⟨"a/b", "n", .deployment, "d"⟩
    let latest := Workload.runningIn "a/b" (.accessing [some (.copying "x" "")])
    let baseline := Workload.runningIn "a/b" (.accessing [some (.copying "y" "")])
    let lost (digest : Digest) : Prop := ∃ n ∈ Report.found digest latest baseline,
      n.Tells latest baseline place ∧ ChangePath.workload n.path ≠ "deployment/d" ∧
        n.hash ∈ filteredOut digest latest baseline .deployment "d"
    (∀ digest : Digest, digest.Hexadecimal → ((latest.outline baseline).texts digest).Nodup →
      digest.Separates (latest.digested digest baseline) → lost digest) ∧ lost .spelled := by
  intro place latest baseline lost
  have hunreadable : ¬ place.Readable := fun h =>
    absurd h.placed (by simp only [ResourcePlace.IsEchoed]; decide)
  have hlost (digest : Digest) (hex : digest.Hexadecimal)
      (distinct : ((latest.outline baseline).texts digest).Nodup)
      (separates : digest.Separates (latest.digested digest baseline)) : lost digest := by
    have hfindings := map_finding_found hex distinct separates
    have hfields : (latest.outline baseline).fields.map FieldDrift.finding =
        ((Resource.accessing [some (.copying "x" "")]).fieldDrifts
          (.accessing [some (.copying "y" "")]) place.path).map FieldDrift.finding := by
      decide +kernel
    have hnonempty : Report.found digest latest baseline ≠ [] := by
      intro hnil
      rw [hnil] at hfindings
      exact absurd hfindings.symm (by decide +kernel)
    obtain ⟨n, hn⟩ := List.exists_mem_of_ne_nil _ hnonempty
    have hfinding : n.finding ∈ (latest.outline baseline).fields.map FieldDrift.finding :=
      hfindings ▸ List.mem_map_of_mem hn
    rw [hfields] at hfinding
    obtain ⟨f, hf, hfound⟩ := List.mem_map.1 hfinding
    have htells : n.Tells latest baseline place := ⟨_, _, rfl, rfl, f, hf, hfound.symm⟩
    have hpath : ChangePath.workload n.path ≠ "deployment/d" := fun h =>
      hunreadable (htells.workload_iff.1 h)
    exact ⟨n, hn, htells, hpath, (hash_mem_filteredOut hn).2 hpath⟩
  exact ⟨hlost, hlost .spelled Digest.hexadecimal_spelled (by decide +kernel)
    (Digest.separates_spelled _)⟩

end WorkloadDrift
