import WorkloadDrift.Proofs.Comparison.Agreement

/-!
# Where change nodes come from

Whatever the digest, even one that mixes changes up, every node that a comparison
stores is active, stands on a level from the root to the leaves, and shows an event
of one of the two snapshots if it shows any.
-/
namespace WorkloadDrift

/-! ## Events of a snapshot -/

def Resource.Observes (r : Resource) (e : Event) : Prop :=
  ∃ category ∈ EventCategory.all, some e ∈ r.events.get category

def Named.Observes {α : Type} (observes : α → Event → Prop) (m : Named α) (e : Event) : Prop :=
  ∃ v ∈ m.values, observes v e

def Namespace.Observes (n : Namespace) (e : Event) : Prop :=
  ∃ kind ∈ ResourceKind.all, (n.ofKind kind).Observes Resource.Observes e

def Cluster.Observes (c : Cluster) (e : Event) : Prop := c.namespaces.Observes Namespace.Observes e

/-- Whether an event was seen at some resource of a snapshot. -/
def Workload.Observes (w : Workload) (e : Event) : Prop := w.clusters.Observes Cluster.Observes e

theorem Event.file?_eq_some {e : Event} {f : FileEvent} : e.file? = some f ↔ e = .file f := by
  cases e <;> simp [file?]

theorem Event.network?_eq_some {e : Event} {f : NetworkEvent} :
    e.network? = some f ↔ e = .network f := by
  cases e <;> simp [network?]

theorem mem_faced {latest baseline : List (Option Event)} {pair : Option Event × Option Event}
    (h : pair ∈ faced latest baseline) :
    (∀ e, pair.1 = some e → some e ∈ latest) ∧ (∀ e, pair.2 = some e → some e ∈ baseline) := by
  induction latest, baseline using faced.induct with
  | case1 new latest old baseline ih =>
    rcases List.mem_cons.1 h with rfl | h
    · exact ⟨fun e he => by simp_all, fun e he => by simp_all⟩
    · obtain ⟨hnew, hold⟩ := ih h
      exact ⟨fun e he => List.mem_cons_of_mem _ (hnew e he),
        fun e he => List.mem_cons_of_mem _ (hold e he)⟩
  | case2 x latest y baseline hx ih =>
    rw [faced] at h
    · rcases List.mem_cons.1 h with rfl | h
      · exact ⟨by simp, by simp⟩
      · obtain ⟨hnew, hold⟩ := ih h
        exact ⟨fun e he => List.mem_cons_of_mem _ (hnew e he),
          fun e he => List.mem_cons_of_mem _ (hold e he)⟩
    · exact hx
  | case3 latest =>
    rw [faced] at h
    obtain ⟨e, he, rfl⟩ := List.mem_map.1 h
    exact ⟨fun e' he' => he' ▸ he, by simp⟩
  | case4 baseline hne =>
    rw [faced] at h
    · obtain ⟨e, he, rfl⟩ := List.mem_map.1 h
      exact ⟨by simp, fun e' he' => he' ▸ he⟩
    · exact hne

/-- A difference of fields is shown with one of the two events. -/
theorem payload_of_fieldDrift? {category : EventCategory} {path : String} {index : Nat}
    {latest baseline : Option Event} {field : String} {f : FieldDrift}
    (h : fieldDrift? category path index latest baseline field = some f) :
    latest = some f.payload ∨ baseline = some f.payload := by
  simp only [fieldDrift?] at h
  split at h
  · simp at h
  · obtain ⟨payload, hpayload, rfl⟩ := Option.map_eq_some_iff.1 h
    split at hpayload
    · exact .inr hpayload
    · exact .inl hpayload

/-! ## Nodes of a comparison -/

/-- What is so of the node of a change, where the events at hand are of a class. -/
structure Node.Found (observed : Event → Prop) (n : Node) : Prop where
  active : n.change.canceled = false
  level : 0 ≤ n.level ∧ n.level ≤ leafLevel
  file : ∀ e, n.file = some e → observed (.file e)
  network : ∀ e, n.network = some e → observed (.network e)

theorem Node.Found.of_noEvent {observed : Event → Prop} {n : Node}
    (active : n.change.canceled = false) (level : 0 ≤ n.level ∧ n.level ≤ leafLevel)
    (hfile : n.file = none) (hnetwork : n.network = none) : n.Found observed :=
  ⟨active, level, by simp [hfile], by simp [hnetwork]⟩

theorem Node.Found.mono {observed observed' : Event → Prop} {n : Node} (h : n.Found observed)
    (hsub : ∀ e, observed e → observed' e) : n.Found observed' :=
  ⟨h.active, h.level, fun e he => hsub _ (h.file e he), fun e he => hsub _ (h.network e he)⟩

theorem Node.Found.of_finding {observed : Event → Prop} {n m : Node} (h : m.Found observed)
    (heq : n.finding = m.finding) : n.Found observed := by
  simp only [finding, Finding.mk.injEq] at heq
  obtain ⟨-, -, hlevel, hnetwork, hfile, hchange⟩ := heq
  exact ⟨hchange ▸ h.active, hlevel ▸ h.level, hfile ▸ h.file, hnetwork ▸ h.network⟩

namespace Comparison

variable {digest : Digest}

theorem found_compareNamed {α : Type} {observes : α → Event → Prop} {contentHash : α → String}
    {s : Site} (hlevel : 0 ≤ s.level ∧ s.level ≤ leafLevel)
    {inside : α → α → (parentHash path : String) → List Delta}
    (hinside : ∀ new old p path, ∀ d ∈ inside new old p path,
      d.node.Found fun e => observes new e ∨ observes old e) (latest baseline : Named α) :
    ∀ d ∈ compareNamed digest contentHash s inside latest baseline,
      d.node.Found fun e => latest.Observes observes e ∨ baseline.Observes observes e := by
  intro d hd
  rcases mem_compareNamed hd with
    ⟨name, kind, content, change, hactive, rfl⟩ | ⟨name, new, old, p, hnew, hold, hd⟩
  · exact .of_noEvent hactive hlevel rfl rfl
  · apply (hinside new old p (s.pathOf name) d hd).mono
    intro e he
    apply he.imp
    · exact fun h => ⟨new, List.mem_map_of_mem (Named.get?_eq_some_iff.1 hnew), h⟩
    · exact fun h => ⟨old, List.mem_map_of_mem (Named.get?_eq_some_iff.1 hold), h⟩

theorem found_compareEvents (latest baseline : Resource) (p path : String) :
    ∀ d ∈ compareEvents digest latest baseline p path,
      d.node.Found fun e => latest.Observes e ∨ baseline.Observes e := by
  intro d hd
  rw [compareEvents_eq, Resource.outline, Drift.deltas_flatMap] at hd
  obtain ⟨f, hf, hd⟩ := List.mem_flatMap.1 hd
  obtain rfl := List.mem_singleton.1 hd
  obtain ⟨category, hcategory, hf⟩ := List.mem_flatMap.1 hf
  obtain ⟨⟨pair, index⟩, hpair, hf⟩ := List.mem_flatMap.1 hf
  obtain ⟨field, -, hf⟩ := List.mem_filterMap.1 hf
  obtain ⟨hnew, hold⟩ := mem_faced (List.fst_mem_of_mem_zipIdx hpair)
  have hpayload : latest.Observes f.payload ∨ baseline.Observes f.payload := by
    rcases payload_of_fieldDrift? hf with h | h
    · exact .inl ⟨category, hcategory, hnew _ h⟩
    · exact .inr ⟨category, hcategory, hold _ h⟩
  refine ⟨rfl, ⟨(by decide : (0 : Int) ≤ 4), Int.le_refl _⟩, fun e he => ?_, fun e he => ?_⟩
  · rwa [Event.file?_eq_some.1 he] at hpayload
  · rwa [Event.network?_eq_some.1 he] at hpayload

theorem found_compareResources (kind : ResourceKind) (latest baseline : Named Resource)
    (p path : String) : ∀ d ∈ compareResources digest kind latest baseline p path,
      d.node.Found fun e => latest.Observes Resource.Observes e ∨ baseline.Observes Resource.Observes e := by
  unfold compareResources
  exact found_compareNamed (by simp [leafLevel]) found_compareEvents latest baseline

theorem found_compareNamespaces (latest baseline : Named Namespace) (p path : String) :
    ∀ d ∈ compareNamespaces digest latest baseline p path,
      d.node.Found fun e => latest.Observes Namespace.Observes e ∨
        baseline.Observes Namespace.Observes e := by
  unfold compareNamespaces
  refine found_compareNamed (by simp [leafLevel]) ?_ latest baseline
  intro new old p path d hd
  obtain ⟨kind, hkind, hd⟩ := List.mem_flatMap.1 hd
  apply (found_compareResources kind _ _ p path d hd).mono
  exact fun e he => he.imp (fun h => ⟨kind, hkind, h⟩) fun h => ⟨kind, hkind, h⟩

theorem found_compareClusters (latest baseline : Named Cluster) (p path : String) :
    ∀ d ∈ compareClusters digest latest baseline p path,
      d.node.Found fun e => latest.Observes Cluster.Observes e ∨ baseline.Observes Cluster.Observes e := by
  unfold compareClusters
  exact found_compareNamed (by simp [leafLevel])
    (fun new old => found_compareNamespaces new.namespaces old.namespaces) latest baseline

theorem found_deltas (latest baseline : Workload) :
    ∀ d ∈ deltas digest latest baseline,
      d.node.Found fun e => latest.Observes e ∨ baseline.Observes e := by
  intro d hd
  simp only [deltas] at hd
  split at hd
  · simp at hd
  · rcases List.mem_cons.1 hd with rfl | hd
    · exact .of_noEvent rfl ⟨Int.le_refl _, (by decide : (0 : Int) ≤ 4)⟩ rfl rfl
    · exact found_compareClusters latest.clusters baseline.clusters _ _ d hd

end Comparison

/-! ## Nodes of a graph -/

namespace ChangeGraph

theorem mem_storeNode {n m : Node} {nodes : List Node} (h : m ∈ storeNode n nodes) :
    m = n ∨ m ∈ nodes := by
  induction nodes with
  | nil => exact .inl (List.mem_singleton.1 h)
  | cons k nodes ih =>
    unfold storeNode at h
    split at h
    · rcases List.mem_cons.1 h with h | h
      · exact .inl h
      · exact .inr (List.mem_cons_of_mem _ h)
    · rcases List.mem_cons.1 h with h | h
      · exact .inr (h ▸ List.mem_cons_self)
      · exact (ih h).imp_right (List.mem_cons_of_mem _)

/-- Whether every stored node shows one of some changes, up to its links. -/
def Shows (g : ChangeGraph) (deltas : List Delta) : Prop :=
  ∀ n ∈ g.nodes, ∃ d ∈ deltas, n.hash = d.node.hash ∧ n.finding = d.node.finding

variable {g : ChangeGraph} {deltas : List Delta}

theorem Shows.linkNew (hg : g.Shows deltas) (h child : String) : (g.linkNew h child).Shows deltas := by
  unfold ChangeGraph.linkNew
  split
  · exact hg
  · split
    · exact hg
    · intro m hm
      obtain ⟨k, hk, rfl⟩ := List.mem_map.1 hm
      obtain ⟨d, hd, hshown⟩ := hg k hk
      refine ⟨d, hd, ?_⟩
      split <;> exact hshown

/-- Storing a change links its node, and keeps what the node shows. -/
theorem Shows.add (hg : g.Shows deltas) {d : Delta} (hd : d ∈ deltas) :
    (g.add d.node d.parentHash).Shows deltas := by
  have hstored : (g.store { d.node with parentHash := d.parentHash }).Shows deltas := by
    intro m hm
    rcases mem_storeNode hm with rfl | hm
    · exact ⟨d, hd, rfl, rfl⟩
    · exact hg m hm
  unfold ChangeGraph.add
  split
  · exact hstored
  · exact hstored.linkNew d.parentHash d.node.hash

theorem Shows.foldl_add (hg : g.Shows deltas) {todo : List Delta} (htodo : todo ⊆ deltas) :
    (todo.foldl (fun g d => g.add d.node d.parentHash) g).Shows deltas := by
  induction todo generalizing g with
  | nil => exact hg
  | cons d todo ih =>
    obtain ⟨hd, htodo⟩ := List.cons_subset.1 htodo
    exact ih (hg.add hd) htodo

/-- Even where changes share a hash, every node shows one of them. -/
theorem shows_ofDeltas (deltas : List Delta) : (ofDeltas deltas).Shows deltas :=
  Shows.foldl_add (by simp [Shows, empty]) (List.Subset.refl deltas)

end ChangeGraph

/-- Every node that a comparison stores is active, stands on one of the levels, and shows an event
of one of the snapshots or none. -/
theorem found_difference (digest : Digest) (latest baseline : Workload) :
    ∀ n ∈ (difference digest latest baseline).nodes,
      n.Found fun e => latest.Observes e ∨ baseline.Observes e := by
  intro n hn
  obtain ⟨d, hd, -, hfinding⟩ := ChangeGraph.shows_ofDeltas _ n hn
  exact (Comparison.found_deltas latest baseline d hd).of_finding hfinding

end WorkloadDrift
