import WorkloadDrift.Proofs.Comparison.Edits
import WorkloadDrift.Proofs.Comparison.Origin

/-!
# Comparing the other way round

With the sides exchanged what came goes and what went comes. The names stand in
another order then, those of the latest side before those of the baseline alone,
but the fields that differ stand in the same one, as only common names have them.
-/
namespace WorkloadDrift

def Change.mirrored (c : Change) : Change := { c with insert := c.remove, remove := c.insert }

namespace Finding

/-- A finding without the event that it is shown with. -/
def bare (f : Finding) : Finding := { f with network := none, file := none }

/-- What is found in its place when the sides are exchanged, but for the event. -/
def mirrored (f : Finding) : Finding := { f.bare with change := f.change.mirrored }

end Finding

/-! ## Fields -/

theorem faced_swap (latest baseline : List (Option Event)) :
    faced baseline latest = (faced latest baseline).map Prod.swap := by
  induction latest generalizing baseline with
  | nil => cases baseline <;> simp [faced]
  | cons new latest ih =>
    cases baseline with
    | nil => simp [faced]
    | cons old baseline => cases new <;> cases old <;> simp [faced, ih]

def EventCategory.nodeType (category : EventCategory) : NodeType :=
  if category.isNetwork then .networkEvent else .fileEvent

theorem Resource.nodeType_of_mem {r : Resource} {category : EventCategory} {e : Event}
    (h : some e ∈ r.events.get category) : e.nodeType = category.nodeType := by
  have hmap {α : Type} {l : List (Option α)} {f : α → Event}
      (h : some e ∈ l.map (·.map f)) : ∃ a, e = f a := by
    obtain ⟨_, -, h⟩ := List.mem_map.1 h
    obtain ⟨a, -, rfl⟩ := Option.map_eq_some_iff.1 h
    exact ⟨a, rfl⟩
  cases category <;> obtain ⟨_, rfl⟩ := hmap h <;> rfl

/-- The events on the two sides are of one type, so it does not matter which of them is shown. -/
theorem mirrored_fieldDrift? {category : EventCategory} {path : String} {index : Nat}
    {latest baseline : Option Event} {field : String} {type : NodeType}
    (hlatest : ∀ e, latest = some e → e.nodeType = type)
    (hbaseline : ∀ e, baseline = some e → e.nodeType = type) :
    (fieldDrift? category path index baseline latest field).map (·.finding.bare) =
      (fieldDrift? category path index latest baseline field).map (·.finding.mirrored) := by
  by_cases heq : fieldText latest field = fieldText baseline field
  · simp [fieldDrift?, heq]
  · obtain ⟨p, hp⟩ := exists_payload heq
    obtain ⟨q, hq⟩ := exists_payload (Ne.symm heq)
    have hptype : p.nodeType = type := by
      split at hp
      · exact hbaseline p hp
      · exact hlatest p hp
    have hqtype : q.nodeType = type := by
      split at hq
      · exact hlatest q hq
      · exact hbaseline q hq
    simp only [fieldDrift?, heq, Ne.symm heq, if_false, hp, hq, Option.map_some]
    simp [FieldDrift.finding, Finding.bare, Finding.mirrored, Change.mirrored, hptype, hqtype]

theorem mirrored_fieldDrifts {category : EventCategory} {path : String}
    {latest baseline : List (Option Event)} {type : NodeType}
    (hlatest : ∀ e, some e ∈ latest → e.nodeType = type)
    (hbaseline : ∀ e, some e ∈ baseline → e.nodeType = type) :
    (fieldDrifts category path baseline latest).map (·.finding.bare) =
      (fieldDrifts category path latest baseline).map (·.finding.mirrored) := by
  rw [fieldDrifts, faced_swap, List.zipIdx_map, List.flatMap_map, List.map_flatMap, fieldDrifts,
    List.map_flatMap]
  apply List.flatMap_congr
  rintro ⟨⟨new, old⟩, index⟩ hpair
  obtain ⟨hnew, hold⟩ := mem_faced (List.fst_mem_of_mem_zipIdx hpair)
  rw [List.map_filterMap, List.map_filterMap]
  apply List.filterMap_congr
  intro field _
  exact mirrored_fieldDrift? (fun e he => hlatest e (hnew e he)) fun e he => hbaseline e (hold e he)

theorem Resource.mirrored_fieldDrifts (latest baseline : Resource) (path : String) :
    (baseline.fieldDrifts latest path).map (·.finding.bare) =
      (latest.fieldDrifts baseline path).map (·.finding.mirrored) := by
  rw [Resource.fieldDrifts, Resource.fieldDrifts, List.map_flatMap, List.map_flatMap]
  exact List.flatMap_congr fun category _ =>
    WorkloadDrift.mirrored_fieldDrifts (fun _ he => nodeType_of_mem he) fun _ he => nodeType_of_mem he

/-! ## Outlines -/

/-- An outline and the one with the sides exchanged: the fields stand in one order, all differences
together in some other. -/
structure Forest.Mirrors (f g : Forest Drift) : Prop where
  fields : g.fields.map (·.finding.bare) = f.fields.map (·.finding.mirrored)
  entries : (g.entries.map (·.finding.bare)).Perm (f.entries.map (·.finding.mirrored))

namespace Forest.Mirrors

theorem nil : Mirrors .nil .nil := ⟨rfl, .nil⟩

theorem cons {d e : Drift} {f g : Forest Drift} (hd : d.field? = none) (he : e.field? = none)
    (hroot : e.finding.bare = d.finding.mirrored) (h : f.Mirrors g) :
    Mirrors (.cons d f .nil) (.cons e g .nil) where
  fields := by simpa [Forest.fields, Forest.entries, hd, he] using h.fields
  entries := by simpa [Forest.entries, hroot] using h.entries

theorem flatMap {β : Type} {l : List β} {f g : β → Forest Drift}
    (h : ∀ b ∈ l, (f b).Mirrors (g b)) : Mirrors (.flatMap l f) (.flatMap l g) where
  fields := by
    simp only [Forest.fields, Forest.entries_flatMap, List.filterMap_flatMap, List.map_flatMap]
    exact List.flatMap_congr fun b hb => (h b hb).fields
  entries := by
    simp only [Forest.entries_flatMap, List.map_flatMap]
    exact List.Perm.flatMap_left l fun b hb => (h b hb).entries

end Forest.Mirrors

theorem Resource.mirrors_outline (latest baseline : Resource) (path : String) :
    (latest.outline baseline path).Mirrors (baseline.outline latest path) := by
  have hfields (r r' : Resource) : (r.outline r' path).fields = r.fieldDrifts r' path := by
    simp [Resource.outline, Forest.fields, List.filterMap_flatMap, Drift.field?]
  have hentries (r r' : Resource) :
      (r.outline r' path).entries = (r.fieldDrifts r' path).map .field := by
    simp [Resource.outline, List.map_eq_flatMap]
  constructor
  · rw [hfields, hfields, mirrored_fieldDrifts]
  · rw [hentries, hentries, List.map_map, List.map_map]
    exact .of_eq (mirrored_fieldDrifts latest baseline path)

namespace PartSite

variable {α : Type} [DecidableEq α] (s : PartSite α) {inside : α → α → String → Forest Drift}

theorem mirrors_outlineAt
    (hinside : ∀ new old path, (inside new old path).Mirrors (inside old new path))
    (e : String × Option α × Option α) :
    (s.outlineAt inside e).Mirrors (s.outlineAt inside (Named.exchanged e)) := by
  match e with
  | (name, some new, some old) =>
    by_cases heq : new = old
    · simpa [outlineAt, Named.exchanged, heq] using Forest.Mirrors.nil
    · simpa [outlineAt, Named.exchanged, heq, Ne.symm heq] using
        Forest.Mirrors.cons rfl rfl rfl (hinside new old (s.pathOf name))
  | (_, some _, none) => exact .cons rfl rfl rfl .nil
  | (_, none, some _) => exact .cons rfl rfl rfl .nil
  | (_, none, none) => exact .nil

/-- The names are met in another order when the sides are exchanged, but the common ones, which have
all the fields, in the same. -/
theorem mirrors_outline
    (hinside : ∀ new old path, (inside new old path).Mirrors (inside old new path))
    (latest baseline : Named α) :
    (s.outline inside latest baseline).Mirrors (s.outline inside baseline latest) := by
  have hat := s.mirrors_outlineAt hinside
  have hfields (m m' : Named α) : (s.outline inside m m').fields =
      (m.common m').flatMap fun e => (s.outlineAt inside (e.1, some e.2.1, some e.2.2)).fields := by
    rw [outline, Forest.fields, Forest.entries_flatMap, List.filterMap_flatMap]
    exact Named.flatMap_facing_common (fun _ _ => rfl) (fun _ _ => rfl) m m'
  constructor
  · rw [hfields, hfields, Named.common_exchanged, List.flatMap_map, List.map_flatMap,
      List.map_flatMap]
    exact List.flatMap_congr fun e _ => (hat (e.1, some e.2.1, some e.2.2)).fields
  · rw [outline, outline, Forest.entries_flatMap, Forest.entries_flatMap, List.map_flatMap,
      List.map_flatMap]
    refine ((Named.facing_perm_exchanged latest baseline).flatMap_right _).trans ?_
    rw [List.flatMap_map]
    exact List.Perm.flatMap_left _ fun e _ => (hat e).entries

end PartSite

theorem Namespace.mirrors_outline (latest baseline : Namespace) (path : String) :
    (latest.outline baseline path).Mirrors (baseline.outline latest path) :=
  .flatMap fun kind _ => (PartSite.ofResource kind path).mirrors_outline Resource.mirrors_outline _ _

theorem Cluster.mirrors_outline (latest baseline : Cluster) (path : String) :
    (latest.outline baseline path).Mirrors (baseline.outline latest path) :=
  (PartSite.ofNamespace path).mirrors_outline Namespace.mirrors_outline _ _

theorem Workload.mirrors_outline (latest baseline : Workload) :
    (latest.outline baseline).Mirrors (baseline.outline latest) := by
  rw [Workload.outline, Workload.outline]
  by_cases heq : latest = baseline
  · rw [if_pos heq, if_pos heq.symm]
    exact .nil
  · rw [if_neg heq, if_neg (Ne.symm heq)]
    exact .cons rfl rfl rfl
      ((PartSite.ofCluster rootPath).mirrors_outline Cluster.mirrors_outline _ _)

end WorkloadDrift
