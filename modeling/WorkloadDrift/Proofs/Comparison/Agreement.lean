import WorkloadDrift.Proofs.ContentHash
import WorkloadDrift.Proofs.Comparison.Outline

/-!
# Comparing by digests

Where no two of the values that are compared have one digest, the comparison by
digests finds the changes of the outline.
-/
namespace WorkloadDrift

theorem editScript_singletons {α : Type} [DecidableEq α] {a b : α} (h : a ≠ b) :
    editScript [a] [b] = [⟨.remove, a⟩, ⟨.insert, b⟩] := by
  simp [editScript, EditScript.search, EditScript.round, EditScript.reach, EditScript.advance,
    EditScript.goesDown, EditScript.column, EditScript.follow, EditScript.finished?,
    EditScript.isComplete, EditScript.initialFrontier, EditScript.Path.start, h, List.range_succ]

/-! ## Digesting snapshots -/

namespace Comparison

variable {digest : Digest}

section Named

variable {α : Type} {inside : α → α → (parentHash path : String) → List Delta}
  {latest baseline : Named α}

/-- The changes under a name. -/
def changesAt (digest : Digest) (contentHash : α → String) (s : Site)
    (inside : α → α → (parentHash path : String) → List Delta) :
    String × Option α × Option α → List Delta
  | (name, some new, some old) =>
    if contentHash new = contentHash old then []
    else
      let delta := s.changed digest name (contentHash new)
      delta :: inside new old delta.node.hash delta.node.path
  | (name, some new, none) => [s.inserted digest name (contentHash new)]
  | (name, none, some old) => [s.removed digest name (contentHash old)]
  | (_, none, none) => []

theorem compareNamed_eq_flatMap (contentHash : α → String) (s : Site) :
    compareNamed digest contentHash s inside latest baseline =
      (latest.facing baseline).flatMap (changesAt digest contentHash s inside) := by
  rw [compareNamed, Named.facing, List.flatMap_append, List.flatMap_map, List.flatMap_map,
    List.map_eq_flatMap]
  congr 1
  apply List.flatMap_congr
  intro e _
  dsimp only
  cases baseline.get? e.1 <;> rfl

/-- A change in a mapping is that of an entry as a whole, or one inside an entry that stands on both
sides. -/
theorem mem_compareNamed {contentHash : α → String} {s : Site} {d : Delta}
    (hd : d ∈ compareNamed digest contentHash s inside latest baseline) :
    (∃ name kind content change,
      change.canceled = false ∧ d = s.delta digest name kind content change) ∨
    ∃ name new old p, latest.get? name = some new ∧ baseline.get? name = some old ∧
      d ∈ inside new old p (s.pathOf name) := by
  rw [compareNamed_eq_flatMap] at hd
  obtain ⟨⟨name, new, old⟩, he, hd⟩ := List.mem_flatMap.1 hd
  obtain ⟨hnew, hold, -⟩ := Named.mem_facing_iff.1 he
  match new, old with
  | some new, some old =>
    simp only [changesAt] at hd
    split at hd
    · simp at hd
    · rcases List.mem_cons.1 hd with hd | hd
      · exact .inl ⟨name, _, _, _, rfl, hd⟩
      · exact .inr ⟨name, new, old, _, hnew, hold, hd⟩
  | some new, none => exact .inl ⟨name, _, _, _, rfl, List.mem_singleton.1 hd⟩
  | none, some old => exact .inl ⟨name, _, _, _, rfl, List.mem_singleton.1 hd⟩
  | none, none => simp [changesAt] at hd

theorem compareNamed_eq [DecidableEq α] (s : PartSite α) (outline : α → α → String → Forest Drift)
    (hashed : α → α → List Json) (faithful : Json.Faithful s.encode)
    (hinside : ∀ new old, digest.SeparatesValues (hashed new old) →
      ∀ p path, inside new old p path = Drift.deltas digest p (outline new old path))
    (separates : digest.SeparatesValues (latest.hashed s.encode hashed baseline)) (parentHash : String) :
    compareNamed digest (fun v => digest.value (s.encode v))
        ⟨s.part.type, s.part.level, parentHash, s.pathOf⟩ inside latest baseline =
      Drift.deltas digest parentHash (s.outline outline latest baseline) := by
  rw [compareNamed_eq_flatMap, PartSite.outline, Drift.deltas_flatMap]
  apply List.flatMap_congr
  intro e he
  match e, he with
  | (name, some new, none), _ => rfl
  | (name, none, some old), _ => rfl
  | (name, none, none), _ => rfl
  | (name, some new, some old), he =>
    have hmem : ∀ v ∈ s.encode new :: s.encode old :: (if new = old then [] else hashed new old),
        v ∈ latest.hashed s.encode hashed baseline := fun v hv => List.mem_flatMap.2 ⟨_, he, hv⟩
    have hpair : digest.SeparatesValues [s.encode new, s.encode old] :=
      separates.mono fun v hv => hmem v (List.mem_append_left _ hv)
    have hiff := faithful.value_eq_iff hpair
    by_cases heq : new = old
    · simp [heq, PartSite.outlineAt, changesAt]
    · have hbelow := hinside new old (separates.mono fun v hv => hmem v (by simp [heq, hv]))
      simp only [hiff, heq, if_false, hbelow, PartSite.outlineAt, changesAt]
      rw [Drift.deltas, Drift.deltas_nil, List.append_nil]
      rfl

end Named

section Events

variable (s : EventSite)

/-- The change of a field at a position, found by value. -/
def EventSite.valueDelta? (digest : Digest) (s : EventSite) (index : Nat)
    (latest baseline : Option Event) (field : String) : Option Delta :=
  (fieldDrift? s.category s.path index latest baseline field).map fun f =>
    (Drift.field f).delta digest s.parentHash

theorem EventSite.delta_field (payload : Event) (index : Nat) (field old new : String)
    (paired : Bool) :
    let f : FieldDrift := ⟨s.category, s.path, index, field, payload, old, new, paired⟩
    (Drift.field f).delta digest s.parentHash =
      s.delta digest payload index field f.kind f.content
        { insert := present new, remove := present old } := by
  cases payload <;> rfl

theorem EventSite.fieldDelta?_eq (latest baseline : Event) (index : Nat) (field : String) :
    s.fieldDelta? digest latest baseline index field =
      s.valueDelta? digest index (some latest) (some baseline) field := by
  unfold fieldDelta? valueDelta? fieldDrift?
  simp only [fieldText, Option.map_some, Option.getD_some]
  by_cases hsame : latest.fieldValue field = baseline.fieldValue field
  · simp [hsame]
  · by_cases hnew : latest.fieldValue field = ""
    · have hold : baseline.fieldValue field ≠ "" := fun h => hsame (hnew.trans h.symm)
      simp [hnew, hold, fieldEdits, valuesOf, delta_field, FieldDrift.kind, FieldDrift.content,
        present]
    · by_cases hold : baseline.fieldValue field = ""
      · simp [hnew, hold, fieldEdits, valuesOf, delta_field, FieldDrift.kind, FieldDrift.content,
          present]
      · have hscript := editScript_singletons (Ne.symm hsame)
        simp [hsame, hnew, hold, fieldEdits, valuesOf, hscript, delta_field, FieldDrift.kind,
          FieldDrift.content, present]

theorem EventSite.pairDeltas_some (index : Nat) (latest baseline : Event) :
    s.pairDeltas digest index (some latest, some baseline) =
      s.category.comparedFields.filterMap
        (s.valueDelta? digest index (some latest) (some baseline)) :=
  List.filterMap_congr fun field _ => s.fieldDelta?_eq latest baseline index field

theorem EventSite.wholeDeltas_insert (index : Nat) (e : Option Event) :
    s.wholeDeltas digest .insert index e =
      s.category.comparedFields.filterMap (s.valueDelta? digest index e none) := by
  cases e with
  | none => simp [wholeDeltas, valueDelta?, fieldDrift?, fieldText]
  | some e =>
    apply List.filterMap_congr
    intro field _
    by_cases hvalue : e.fieldValue field = ""
    · simp [valueDelta?, fieldDrift?, fieldText, hvalue]
    · simp [valueDelta?, fieldDrift?, fieldText, hvalue, delta_field, FieldDrift.kind,
        FieldDrift.content, present, joined]

theorem EventSite.wholeDeltas_remove (index : Nat) (e : Option Event) :
    s.wholeDeltas digest .remove index e =
      s.category.comparedFields.filterMap (s.valueDelta? digest index none e) := by
  cases e with
  | none => simp [wholeDeltas, valueDelta?, fieldDrift?, fieldText]
  | some e =>
    apply List.filterMap_congr
    intro field _
    by_cases hvalue : e.fieldValue field = ""
    · simp [valueDelta?, fieldDrift?, fieldText, hvalue]
    · simp [valueDelta?, fieldDrift?, fieldText, hvalue, Ne.symm hvalue, delta_field,
        FieldDrift.kind, FieldDrift.content, present, joined]

/-- The changes of two lists whose first entries stand at a given position, found by value. -/
def EventSite.valueDeltas (digest : Digest) (s : EventSite) (start : Nat)
    (latest baseline : List (Option Event)) : List Delta :=
  ((faced latest baseline).zipIdx start).flatMap fun (pair, index) =>
    s.category.comparedFields.filterMap (s.valueDelta? digest index pair.1 pair.2)

/-- Pairs come first, then what is left of the longer list, at the positions that follow. -/
theorem EventSite.valueDeltas_eq (start : Nat) (latest baseline : List (Option Event)) :
    s.valueDeltas digest start latest baseline =
      (((latest.zip baseline).zipIdx start).flatMap fun (pair, index) =>
          s.pairDeltas digest index pair) ++
        (((latest.drop baseline.length).zipIdx (start + baseline.length)).flatMap fun (e, index) =>
          s.wholeDeltas digest .insert index e) ++
        (((baseline.drop latest.length).zipIdx (start + latest.length)).flatMap fun (e, index) =>
          s.wholeDeltas digest .remove index e) := by
  unfold valueDeltas
  induction latest, baseline using faced.induct generalizing start with
  | case1 new latest old baseline ih =>
    have hnext := ih (start + 1)
    simp only [faced, List.zip_cons_cons, List.zipIdx_cons, List.flatMap_cons, List.length_cons,
      List.drop_succ_cons, List.append_assoc, pairDeltas_some] at hnext ⊢
    rw [hnext]
    simp only [Nat.add_assoc, Nat.add_comm 1]
  | case2 x latest y baseline hx ih =>
    have hnext := ih (start + 1)
    have hfaced : faced (x :: latest) (y :: baseline) = (none, none) :: faced latest baseline := by
      rw [faced]
      exact hx
    have hpair : s.pairDeltas digest start (x, y) = [] := by
      match x, y, hx with
      | none, _, _ => rfl
      | some _, none, _ => rfl
      | some new, some old, hx => exact absurd rfl (hx new old rfl)
    have hnone : s.category.comparedFields.filterMap (s.valueDelta? digest start none none) = [] := by
      simp [valueDelta?, fieldDrift?]
    rw [hfaced]
    simp only [List.zip_cons_cons, List.zipIdx_cons, List.flatMap_cons, List.length_cons,
      List.drop_succ_cons, List.append_assoc, hpair, hnone] at hnext ⊢
    rw [hnext]
    simp only [Nat.add_assoc, Nat.add_comm 1]
  | case3 latest => simp [faced, List.zipIdx_map, List.flatMap_map, wholeDeltas_insert]
  | case4 baseline => simp [faced, List.zipIdx_map, List.flatMap_map, wholeDeltas_remove]

/-- From the end of the shorter list on, a longer one is counted as before and another one is
empty. -/
theorem zipIdx_drop_min {α : Type} (l : List α) (n : Nat) :
    (l.drop (min l.length n)).zipIdx (min l.length n) = (l.drop n).zipIdx n := by
  rcases Nat.le_total n l.length with h | h
  · rw [Nat.min_eq_right h]
  · rw [Nat.min_eq_left h, List.drop_length, List.drop_eq_nil_of_le h]
    rfl

theorem EventSite.deltas_eq (latest baseline : List (Option Event)) :
    s.deltas digest latest baseline =
      (fieldDrifts s.category s.path latest baseline).map fun f =>
        (Drift.field f).delta digest s.parentHash := by
  have hvalue : (fieldDrifts s.category s.path latest baseline).map (fun f =>
      (Drift.field f).delta digest s.parentHash) = s.valueDeltas digest 0 latest baseline := by
    rw [fieldDrifts, valueDeltas, List.map_flatMap]
    exact List.flatMap_congr fun _ _ => List.map_filterMap
  rw [hvalue, valueDeltas_eq, EventSite.deltas, surplus, surplus, zipIdx_drop_min latest,
    Nat.min_comm, zipIdx_drop_min baseline, Nat.zero_add, Nat.zero_add]

theorem compareEvents_eq (latest baseline : Resource) (parentHash path : String) :
    compareEvents digest latest baseline parentHash path =
      Drift.deltas digest parentHash (latest.outline baseline path) := by
  simp only [compareEvents, Resource.outline, Resource.fieldDrifts, Drift.deltas_flatMap,
    EventSite.deltas_eq, Drift.deltas_leaf, List.flatMap_assoc, List.map_eq_flatMap]

end Events

theorem compareResources_eq {kind : ResourceKind} {latest baseline : Named Resource}
    (separates : digest.SeparatesValues (latest.hashed Resource.toJson (fun _ _ => []) baseline))
    (parentHash path : String) :
    compareResources digest kind latest baseline parentHash path =
      Drift.deltas digest parentHash
        ((PartSite.ofResource kind path).outline Resource.outline latest baseline) := by
  unfold compareResources
  exact compareNamed_eq (PartSite.ofResource kind path) Resource.outline (fun _ _ => [])
    Resource.faithful_toJson
    (fun new old _ p path => compareEvents_eq new old p path) separates parentHash

theorem compareNamespaces_eq {latest baseline : Cluster}
    (separates : digest.SeparatesValues (latest.hashed baseline)) (parentHash path : String) :
    compareNamespaces digest latest.namespaces baseline.namespaces parentHash path =
      Drift.deltas digest parentHash (latest.outline baseline path) := by
  have hinside (new old : Namespace) (separates : digest.SeparatesValues (new.hashed old))
      (p path : String) :
      (ResourceKind.all.flatMap fun kind =>
          compareResources digest kind (new.ofKind kind) (old.ofKind kind) p path) =
        Drift.deltas digest p (new.outline old path) := by
    rw [Namespace.outline, Drift.deltas_flatMap]
    apply List.flatMap_congr
    intro kind hkind
    apply compareResources_eq
    exact separates.mono fun v hv => List.mem_flatMap.2 ⟨kind, hkind, hv⟩
  unfold compareNamespaces
  exact compareNamed_eq (PartSite.ofNamespace path) Namespace.outline Namespace.hashed
    Namespace.faithful_toJson hinside separates parentHash

theorem compareClusters_eq {latest baseline : Named Cluster}
    (separates : digest.SeparatesValues (latest.hashed Cluster.toJson Cluster.hashed baseline))
    (parentHash path : String) :
    compareClusters digest latest baseline parentHash path =
      Drift.deltas digest parentHash
        ((PartSite.ofCluster path).outline Cluster.outline latest baseline) := by
  unfold compareClusters
  exact compareNamed_eq (PartSite.ofCluster path) Cluster.outline Cluster.hashed Cluster.faithful_toJson
    (fun _ _ separates => compareNamespaces_eq separates) separates parentHash

/-- The changes that are found by digests are those of the outline. -/
theorem deltas_eq {latest baseline : Workload}
    (separates : digest.SeparatesValues (latest.hashed baseline)) :
    deltas digest latest baseline = Drift.deltas digest "" (latest.outline baseline) := by
  have hpair : digest.SeparatesValues [latest.toJson, baseline.toJson] :=
    separates.mono fun v hv => List.mem_append_left _ hv
  have hiff : latest.contentHash digest = baseline.contentHash digest ↔ latest = baseline :=
    Workload.faithful_toJson.value_eq_iff hpair
  by_cases heq : latest = baseline
  · simp [deltas, Workload.outline, heq]
  · have hclusters : digest.SeparatesValues
        (latest.clusters.hashed Cluster.toJson Cluster.hashed baseline.clusters) :=
      separates.mono fun v hv => by simp [Workload.hashed, heq, hv]
    simp only [deltas, hiff, heq, if_false, compareClusters_eq hclusters, Workload.outline,
      Drift.deltas, List.append_nil]
    rfl

end Comparison
end WorkloadDrift
