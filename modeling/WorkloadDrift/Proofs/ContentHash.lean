import WorkloadDrift.Snapshot.Basic
import WorkloadDrift.Proofs.Digest
import WorkloadDrift.Proofs.Named
import WorkloadDrift.Proofs.Json.Canonical

/-!
# Content hashes decide equality

No field of a snapshot is lost in its document, and names stand in one order, so
two subtrees with one canonical text are equal. A digest that tells the two texts
apart then decides equality of the subtrees.
-/
namespace WorkloadDrift
namespace Json

/-- An encoding by which values can be told apart. -/
structure Faithful {α : Type} (encode : α → Json) : Prop where
  floatFree : ∀ a, (encode a).FloatFree
  distinctNames : ∀ a, (encode a).DistinctNames
  inj : ∀ a b, SameValue (encode a) (encode b) → a = b

namespace Faithful

variable {α : Type} {encode : α → Json}

theorem canonical_inj (h : Faithful encode) {a b : α}
    (heq : (encode a).canonical = (encode b).canonical) : a = b :=
  h.inj a b ((canonical_eq_iff (h.floatFree a) (h.floatFree b) (h.distinctNames a)).1 heq)

theorem value_eq_iff (h : Faithful encode) {digest : Digest} {a b : α}
    (separates : digest.Separates [(encode a).canonical, (encode b).canonical]) :
    digest.value (encode a) = digest.value (encode b) ↔ a = b := by
  constructor
  · exact fun heq => h.canonical_inj (separates _ (by simp) _ (by simp) heq)
  · rintro rfl
    rfl

/-- Null stands for no value, so the encoding of a value must not be null. -/
theorem nullable (h : Faithful encode) (notNull : ∀ a, encode a ≠ .null) :
    Faithful (WorkloadDrift.nullable encode) where
  floatFree
    | none => floatFree_null
    | some a => h.floatFree a
  distinctNames
    | none => distinctNames_null
    | some a => h.distinctNames a
  inj a b hsame := by
    have apart (c : α) : ¬ SameValue .null (encode c) ∧ ¬ SameValue (encode c) .null := by
      have hne := notNull c
      cases hc : encode c <;> simp_all [SameValue]
    cases a <;> cases b
    case none.none => rfl
    case none.some b => exact absurd hsame (apart b).1
    case some.none a => exact absurd hsame (apart a).2
    case some.some a b => rw [h.inj a b hsame]

theorem list (h : Faithful encode) : Faithful fun l : List α => .arr (l.map encode) where
  floatFree l := by simpa using fun a _ => h.floatFree a
  distinctNames l := by simpa using fun a _ => h.distinctNames a
  inj l l' hsame := by
    simp only [SameValue] at hsame
    induction l generalizing l' with
    | nil =>
      cases l' with
      | nil => rfl
      | cons a l' => simp [SameItems] at hsame
    | cons a l ih =>
      cases l' with
      | nil => simp [SameItems] at hsame
      | cons a' l' =>
        simp only [List.map_cons, SameItems] at hsame
        rw [h.inj a a' hsame.1, ih l' hsame.2]

end Faithful
end Json

namespace Named

/-- Mappings in ascending order are equal when one has the entries of the other. -/
theorem eq_of_entries_subset {α : Type} {m m' : Named α}
    (hlen : m.entries.length = m'.entries.length) (hsub : ∀ e ∈ m.entries, e ∈ m'.entries) :
    m = m' :=
  eq_of_entries_perm
    ((Json.perm_iff_subset_of_nodup (List.Nodup.of_map _ m.nodup_names)).2 ⟨hlen, hsub⟩)

theorem faithful_toJson {α : Type} {encode : α → Json} (h : Json.Faithful encode) :
    Json.Faithful (Named.toJson encode) where
  floatFree m := by
    rw [Named.toJson, Json.floatFree_obj, List.forall_mem_map]
    exact fun e _ => h.floatFree e.2
  distinctNames m := by
    rw [Named.toJson, Json.distinctNames_obj, List.forall_mem_map]
    exact ⟨by simpa [Function.comp_def] using m.nodup_names, fun e _ => h.distinctNames e.2⟩
  inj m m' hsame := by
    simp only [Named.toJson, Json.sameValue_obj, List.length_map] at hsame
    apply eq_of_entries_subset hsame.1
    intro e he
    obtain ⟨v, hv, hsame⟩ := hsame.2 (e.1, encode e.2) (List.mem_map.2 ⟨e, he, rfl⟩)
    obtain ⟨e', he', heq⟩ := List.mem_map.1 hv
    obtain ⟨hname, rfl⟩ := Prod.mk.inj heq
    have hvalue := h.inj _ _ hsame
    rwa [Prod.ext hname.symm hvalue]

end Named

theorem FileEvent.faithful_toJson : Json.Faithful FileEvent.toJson where
  floatFree e := by simp [FileEvent.toJson, Container.toJson]
  distinctNames e := by simp [FileEvent.toJson, Container.toJson]
  inj e e' hsame := by
    obtain ⟨pod, ⟨name, image⟩, source, destination, count, updatedTime⟩ := e
    obtain ⟨pod', ⟨name', image'⟩, source', destination', count', updatedTime'⟩ := e'
    simpa [FileEvent.toJson, Container.toJson, and_assoc, eq_comm] using hsame

theorem ControlPlaneResource.faithful_toJson : Json.Faithful ControlPlaneResource.toJson where
  floatFree r := by simp [ControlPlaneResource.toJson]
  distinctNames r := by simp [ControlPlaneResource.toJson]
  inj r r' hsame := by
    obtain ⟨namespaceName, type⟩ := r
    obtain ⟨namespaceName', type'⟩ := r'
    simpa [ControlPlaneResource.toJson, eq_comm] using hsame

theorem NetworkEvent.faithful_toJson : Json.Faithful NetworkEvent.toJson := by
  have peer : Json.Faithful (nullable ControlPlaneResource.toJson) :=
    ControlPlaneResource.faithful_toJson.nullable (by simp [ControlPlaneResource.toJson])
  refine ⟨fun e => ?_, fun e => ?_, fun e e' hsame => ?_⟩
  · simpa [NetworkEvent.toJson, Container.toJson, nullable] using peer.floatFree e.cpResource
  · simpa [NetworkEvent.toJson, Container.toJson, nullable] using peer.distinctNames e.cpResource
  · obtain ⟨pod, ⟨name, image⟩, type, ip, port, protocol, peerDomainName, command, cp, count, time⟩ := e
    obtain ⟨pod', ⟨name', image'⟩, type', ip', port', protocol', peerDomainName', command', cp',
      count', time'⟩ := e'
    have hcp := peer.inj cp cp'
    simp only [nullable] at hcp
    simp [NetworkEvent.toJson, Container.toJson] at hsame
    simp_all

theorem EventLists.faithful_toJson : Json.Faithful EventLists.toJson := by
  have files : Json.Faithful fun l => Json.arr (List.map (nullable FileEvent.toJson) l) :=
    (FileEvent.faithful_toJson.nullable (by simp [FileEvent.toJson])).list
  have connections : Json.Faithful fun l => Json.arr (List.map (nullable NetworkEvent.toJson) l) :=
    (NetworkEvent.faithful_toJson.nullable (by simp [NetworkEvent.toJson])).list
  refine ⟨fun e => ?_, fun e => ?_, fun e e' hsame => ?_⟩
  · rw [EventLists.toJson, Json.floatFree_obj]
    simp only [List.forall_mem_cons, List.not_mem_nil, false_imp_iff, implies_true, and_true]
    exact ⟨files.floatFree _, files.floatFree _, connections.floatFree _, connections.floatFree _,
      connections.floatFree _⟩
  · rw [EventLists.toJson, Json.distinctNames_obj]
    simp only [List.forall_mem_cons, List.not_mem_nil, false_imp_iff, implies_true, and_true]
    exact ⟨by simp, files.distinctNames _, files.distinctNames _, connections.distinctNames _,
      connections.distinctNames _, connections.distinctNames _⟩
  · obtain ⟨file, process, ingress, egress, bind⟩ := e
    obtain ⟨file', process', ingress', egress', bind'⟩ := e'
    simp only [EventLists.toJson, Json.sameValue_obj, List.forall_mem_cons] at hsame
    simp at hsame
    obtain ⟨hfile, hprocess, hingress, hegress, hbind⟩ := hsame
    rw [files.inj _ _ hfile, files.inj _ _ hprocess, connections.inj _ _ hingress,
      connections.inj _ _ hegress, connections.inj _ _ hbind]

theorem Resource.faithful_toJson : Json.Faithful Resource.toJson where
  floatFree r := by simpa [Resource.toJson] using EventLists.faithful_toJson.floatFree r.events
  distinctNames r := by
    simpa [Resource.toJson] using EventLists.faithful_toJson.distinctNames r.events
  inj r r' hsame := by
    obtain ⟨labels, events⟩ := r
    obtain ⟨labels', events'⟩ := r'
    simp [Resource.toJson] at hsame
    rw [hsame.1, EventLists.faithful_toJson.inj _ _ hsame.2]

theorem Namespace.ext_ofKind {n n' : Namespace} (h : ∀ kind, n.ofKind kind = n'.ofKind kind) :
    n = n' := by
  cases n
  cases n'
  simp only [Namespace.mk.injEq]
  exact ⟨h .deployment, h .replicaSet, h .statefulSet, h .daemonSet, h .job, h .cronJob⟩

theorem Namespace.faithful_toJson : Json.Faithful Namespace.toJson := by
  have resources := Named.faithful_toJson Resource.faithful_toJson
  refine ⟨fun n => ?_, fun n => ?_, fun n n' hsame => ?_⟩
  · rw [Namespace.toJson, Json.floatFree_obj, List.forall_mem_map]
    exact fun kind _ => resources.floatFree _
  · rw [Namespace.toJson, Json.distinctNames_obj, List.forall_mem_map]
    exact ⟨by simp [ResourceKind.all, ResourceKind.wireKey], fun kind _ => resources.distinctNames _⟩
  · apply Namespace.ext_ofKind
    intro kind
    apply resources.inj
    simp [Namespace.toJson, ResourceKind.all, ResourceKind.wireKey] at hsame
    cases kind <;> simp_all

theorem Cluster.faithful_toJson : Json.Faithful Cluster.toJson := by
  have namespaces := Named.faithful_toJson Namespace.faithful_toJson
  refine ⟨fun c => ?_, fun c => ?_, fun c c' hsame => ?_⟩
  · simpa [Cluster.toJson] using namespaces.floatFree c.namespaces
  · simpa [Cluster.toJson] using namespaces.distinctNames c.namespaces
  · obtain ⟨m⟩ := c
    obtain ⟨m'⟩ := c'
    simp [Cluster.toJson] at hsame
    rw [namespaces.inj _ _ hsame]

theorem Workload.faithful_toJson : Json.Faithful Workload.toJson := by
  have clusters := Named.faithful_toJson Cluster.faithful_toJson
  refine ⟨fun w => ?_, fun w => ?_, fun w w' hsame => ?_⟩
  · simpa [Workload.toJson] using clusters.floatFree w.clusters
  · simpa [Workload.toJson] using clusters.distinctNames w.clusters
  · obtain ⟨m⟩ := w
    obtain ⟨m'⟩ := w'
    simp [Workload.toJson] at hsame
    rw [clusters.inj _ _ hsame]

/-- Under a digest that tells two canonical texts apart, subtrees of one level have one content
hash exactly when they are equal; and two values without floats have one canonical text exactly
when they agree up to the order of object members. -/
theorem contentHash_eq_iff (digest : Digest) :
    (∀ r r' : Resource, digest.Separates [r.toJson.canonical, r'.toJson.canonical] →
      (r.contentHash digest = r'.contentHash digest ↔ r = r')) ∧
    (∀ n n' : Namespace, digest.Separates [n.toJson.canonical, n'.toJson.canonical] →
      (n.contentHash digest = n'.contentHash digest ↔ n = n')) ∧
    (∀ c c' : Cluster, digest.Separates [c.toJson.canonical, c'.toJson.canonical] →
      (c.contentHash digest = c'.contentHash digest ↔ c = c')) ∧
    (∀ w w' : Workload, digest.Separates [w.toJson.canonical, w'.toJson.canonical] →
      (w.contentHash digest = w'.contentHash digest ↔ w = w')) ∧
    (∀ u v : Json, u.FloatFree → v.FloatFree → u.DistinctNames →
      ((∃ text, u.canonical? = .ok text ∧ v.canonical? = .ok text) ↔ Json.SameValue u v)) := by
  refine ⟨fun _ _ => Resource.faithful_toJson.value_eq_iff,
    fun _ _ => Namespace.faithful_toJson.value_eq_iff, fun _ _ => Cluster.faithful_toJson.value_eq_iff,
    fun _ _ => Workload.faithful_toJson.value_eq_iff, fun u v hu hv distinct => ?_⟩
  rw [← Json.canonical_eq_iff hu hv distinct]
  simp [Json.canonical?, Json.isFinite_of_floatFree hu, Json.isFinite_of_floatFree hv, eq_comm]

/-- A resource of which only file accesses are known. -/
def Resource.accessing (file : List (Option FileEvent)) : Resource := ⟨"", file, [], [], [], []⟩

/-- An empty entry makes a list of events another one, and the order of two members does not make
an object another one. -/
theorem contentHash_eq_iff_emptyEntry :
    ((Resource.accessing []).contentHash Sha256.hexDigest =
        (Resource.accessing [none]).contentHash Sha256.hexDigest ↔
      Resource.accessing [] = Resource.accessing [none]) ∧
    (Workload.contentHash Sha256.hexDigest ⟨.empty⟩ =
        Workload.contentHash Sha256.hexDigest ⟨Named.empty.insert "a" ⟨.empty⟩⟩ ↔
      Workload.mk .empty = ⟨Named.empty.insert "a" ⟨.empty⟩⟩) ∧
    ((∃ text, (Json.obj [("b", .int 1), ("a", .null)]).canonical? = .ok text ∧
        (Json.obj [("a", .null), ("b", .int 1)]).canonical? = .ok text) ↔
      Json.SameValue (.obj [("b", .int 1), ("a", .null)]) (.obj [("a", .null), ("b", .int 1)])) := by
  obtain ⟨resources, -, -, workloads, values⟩ := contentHash_eq_iff Sha256.hexDigest
  refine ⟨resources _ _ (Digest.separates_pair ?_), workloads _ _ (Digest.separates_pair ?_),
    values _ _ (by simp) (by simp) (by simp)⟩
  · decide +kernel
  · decide +kernel

end WorkloadDrift
