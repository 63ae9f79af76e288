import WorkloadDrift.Proofs.Comparison.Outline

/-!
# Edits

The leaves of an outline are the field values that differ between the resources
that both snapshots have.
-/
namespace WorkloadDrift

/-- A field value that became another; an empty one counts as absent. -/
structure FieldEdit where
  new : String
  old : String
  deriving DecidableEq, Repr

def fieldEdit? (latest baseline : Option Event) (field : String) : Option FieldEdit :=
  if fieldText latest field = fieldText baseline field then none
  else some ⟨fieldText latest field, fieldText baseline field⟩

def editsAt (category : EventCategory) (pair : Option Event × Option Event) : List FieldEdit :=
  category.comparedFields.filterMap (fieldEdit? pair.1 pair.2)

/-- The field values that differ between two resources, position by position. -/
def Resource.edits (latest baseline : Resource) : List FieldEdit :=
  EventCategory.all.flatMap fun category =>
    (faced (latest.events.get category) (baseline.events.get category)).flatMap (editsAt category)

def Namespace.sharedResources (latest baseline : Namespace) : List (Resource × Resource) :=
  ResourceKind.all.flatMap fun kind => (latest.ofKind kind).shared (baseline.ofKind kind)

def Cluster.sharedResources (latest baseline : Cluster) : List (Resource × Resource) :=
  (latest.namespaces.shared baseline.namespaces).flatMap fun (new, old) => new.sharedResources old

/-- The resources that both snapshots have, each with its latest and its baseline form. -/
def Workload.sharedResources (latest baseline : Workload) : List (Resource × Resource) :=
  (latest.clusters.shared baseline.clusters).flatMap fun (new, old) => new.sharedResources old

def Namespace.edits (latest baseline : Namespace) : List FieldEdit :=
  (latest.sharedResources baseline).flatMap fun pair => pair.1.edits pair.2

def Cluster.edits (latest baseline : Cluster) : List FieldEdit :=
  (latest.sharedResources baseline).flatMap fun pair => pair.1.edits pair.2

def Workload.edits (latest baseline : Workload) : List FieldEdit :=
  (latest.sharedResources baseline).flatMap fun pair => pair.1.edits pair.2

def FieldDrift.edit (f : FieldDrift) : FieldEdit := ⟨f.new, f.old⟩

def Forest.edits (f : Forest Drift) : List FieldEdit :=
  f.entries.filterMap fun d => d.field?.map FieldDrift.edit

/-- The differences of fields in a forest. -/
def Forest.fields (f : Forest Drift) : List FieldDrift := f.entries.filterMap Drift.field?

theorem Forest.map_edit_fields (f : Forest Drift) : f.fields.map FieldDrift.edit = f.edits :=
  List.map_filterMap

@[simp] theorem Forest.edits_flatMap {β : Type} (l : List β) (f : β → Forest Drift) :
    (Forest.flatMap l f).edits = l.flatMap fun b => (f b).edits := by
  simp [Forest.edits, List.filterMap_flatMap]

/-- Whichever side a difference of fields is shown with has a value, so it has an event. -/
theorem exists_payload {latest baseline : Option Event} {field : String}
    (hne : fieldText latest field ≠ fieldText baseline field) :
    ∃ payload, (if fieldText latest field = "" then baseline else latest) = some payload := by
  apply Option.isSome_iff_exists.1
  split
  · next hnew =>
    cases baseline
    · exact absurd (hnew.trans rfl) hne
    · rfl
  · next hnew =>
    cases latest
    · exact absurd rfl hnew
    · rfl

theorem map_edit_fieldDrift? (category : EventCategory) (path : String) (index : Nat)
    (latest baseline : Option Event) (field : String) :
    (fieldDrift? category path index latest baseline field).map FieldDrift.edit =
      fieldEdit? latest baseline field := by
  simp only [fieldDrift?, fieldEdit?]
  split
  · rfl
  · next hne =>
    obtain ⟨payload, hpayload⟩ := exists_payload hne
    simp [hpayload, FieldDrift.edit]

theorem flatMap_zipIdx {α β : Type} (l : List α) (f : α → List β) :
    (l.zipIdx.flatMap fun (a, _) => f a) = l.flatMap f := by
  conv_rhs => rw [← List.zipIdx_map_fst 0 l, List.flatMap_map]

theorem map_edit_fieldDrifts (category : EventCategory) (path : String)
    (latest baseline : List (Option Event)) :
    (fieldDrifts category path latest baseline).map FieldDrift.edit =
      (faced latest baseline).flatMap (editsAt category) := by
  simp only [fieldDrifts, List.map_flatMap, List.map_filterMap, map_edit_fieldDrift?]
  exact flatMap_zipIdx _ (editsAt category)

theorem Resource.edits_outline (latest baseline : Resource) (path : String) :
    (latest.outline baseline path).edits = latest.edits baseline := by
  have hleaf (f : FieldDrift) : (Forest.leaf (.field f)).edits = [f.edit] := rfl
  simp only [Resource.outline, Forest.edits_flatMap, hleaf, ← List.map_eq_flatMap,
    Resource.fieldDrifts, List.map_flatMap, map_edit_fieldDrifts]
  rfl

theorem Resource.edits_self (r : Resource) : r.edits r = [] := by
  have hfaced (l : List (Option Event)) : ∀ pair ∈ faced l l, pair.1 = pair.2 := by
    induction l with
    | nil => simp [faced]
    | cons e l ih => cases e <;> simpa [faced] using ih
  apply List.flatMap_eq_nil_iff.2
  intro category _
  apply List.flatMap_eq_nil_iff.2
  intro pair hpair
  simp [editsAt, fieldEdit?, hfaced _ pair hpair]

theorem Namespace.edits_self (n : Namespace) : n.edits n = [] := by
  apply List.flatMap_eq_nil_iff.2
  rintro ⟨new, old⟩ hpair
  obtain ⟨kind, -, hpair⟩ := List.mem_flatMap.1 hpair
  obtain rfl := Named.eq_of_mem_shared_self hpair
  exact Resource.edits_self new

theorem Cluster.edits_self (c : Cluster) : c.edits c = [] := by
  apply List.flatMap_eq_nil_iff.2
  intro pair hpair
  obtain ⟨⟨new, old⟩, hnamespaces, hpair⟩ := List.mem_flatMap.1 hpair
  obtain rfl := Named.eq_of_mem_shared_self hnamespaces
  exact List.flatMap_eq_nil_iff.1 (Namespace.edits_self new) pair hpair

theorem Workload.edits_self (w : Workload) : w.edits w = [] := by
  apply List.flatMap_eq_nil_iff.2
  intro pair hpair
  obtain ⟨⟨new, old⟩, hclusters, hpair⟩ := List.mem_flatMap.1 hpair
  obtain rfl := Named.eq_of_mem_shared_self hclusters
  exact List.flatMap_eq_nil_iff.1 (Cluster.edits_self new) pair hpair

/-- The edits of an outline are those inside the shared parts; two equal parts have none. -/
theorem PartSite.edits_outline {α : Type} [DecidableEq α] (s : PartSite α)
    {inside : α → α → String → Forest Drift} {edits : α → α → List FieldEdit}
    (hinside : ∀ new old path, (inside new old path).edits = edits new old)
    (hself : ∀ v, edits v v = []) (latest baseline : Named α) :
    (s.outline inside latest baseline).edits =
      (latest.shared baseline).flatMap fun pair => edits pair.1 pair.2 := by
  rw [outline, Forest.edits_flatMap]
  apply Named.flatMap_facing
  · intro name new old
    by_cases heq : new = old
    · simp [outlineAt, heq, hself, Forest.edits, Forest.entries]
    · rw [← hinside new old (s.pathOf name)]
      simp [outlineAt, heq, Forest.edits, Forest.entries, drift, Drift.field?]
  · intro name new
    rfl
  · intro name old
    rfl

theorem Namespace.edits_outline (latest baseline : Namespace) (path : String) :
    (latest.outline baseline path).edits = latest.edits baseline := by
  rw [Namespace.outline, Forest.edits_flatMap, Namespace.edits, sharedResources, List.flatMap_assoc]
  exact List.flatMap_congr fun kind _ =>
    PartSite.edits_outline _ Resource.edits_outline Resource.edits_self _ _

theorem Cluster.edits_outline (latest baseline : Cluster) (path : String) :
    (latest.outline baseline path).edits = latest.edits baseline := by
  rw [Cluster.outline, PartSite.edits_outline _ Namespace.edits_outline Namespace.edits_self,
    Cluster.edits, sharedResources, List.flatMap_assoc]
  rfl

/-- The leaves of an outline hold the edits of the resources that both snapshots have. -/
theorem Workload.edits_outline (latest baseline : Workload) :
    (latest.outline baseline).edits = latest.edits baseline := by
  rw [Workload.outline]
  split
  · next heq =>
    rw [heq, Workload.edits_self]
    rfl
  · have hroot (f : Forest Drift) : (Forest.cons (.root latest) f .nil).edits = f.edits := by
      simp [Forest.edits, Forest.entries, Drift.field?]
    rw [hroot, PartSite.edits_outline _ Cluster.edits_outline Cluster.edits_self, Workload.edits,
      sharedResources, List.flatMap_assoc]
    rfl

end WorkloadDrift
