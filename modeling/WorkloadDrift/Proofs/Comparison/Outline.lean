import WorkloadDrift.Proofs.Named
import WorkloadDrift.Proofs.Comparison.Drift

/-!
# The outline of a comparison

The differences between two snapshots, read off the trees by value, and the
values that a comparison by digests would digest on its way.
-/
namespace WorkloadDrift

/-- The values that are digested when two mappings are compared. -/
def Named.hashed {α : Type} [DecidableEq α] (encode : α → Json) (inside : α → α → List Json)
    (latest baseline : Named α) : List Json :=
  (latest.facing baseline).flatMap fun
    | (_, some new, some old) => encode new :: encode old :: if new = old then [] else inside new old
    | (_, some new, none) => [encode new]
    | (_, none, some old) => [encode old]
    | (_, none, none) => []

/-- Where the parts of a mapping stand, and how they are written down. -/
structure PartSite (α : Type) where
  part : PartKind
  pathOf : String → String
  encode : α → Json

namespace PartSite

variable {α : Type}

def drift (s : PartSite α) (name : String) (how : PartChange) (value : α) : Drift :=
  .part ⟨s.part, s.pathOf name, name, how, s.encode value⟩

/-- The difference under a name, with those inside below it. -/
def outlineAt [DecidableEq α] (s : PartSite α) (inside : α → α → String → Forest Drift) :
    String × Option α × Option α → Forest Drift
  | (name, some new, some old) =>
    if new = old then .nil
    else .cons (s.drift name .changed new) (inside new old (s.pathOf name)) .nil
  | (name, some new, none) => .leaf (s.drift name .inserted new)
  | (name, none, some old) => .leaf (s.drift name .removed old)
  | (_, none, none) => .nil

def outline [DecidableEq α] (s : PartSite α) (inside : α → α → String → Forest Drift)
    (latest baseline : Named α) : Forest Drift :=
  .flatMap (latest.facing baseline) (s.outlineAt inside)

def ofCluster (path : String) : PartSite Cluster where
  part := .cluster
  pathOf name := path ++ "/cluster/" ++ name
  encode := Cluster.toJson

def ofNamespace (path : String) : PartSite Namespace where
  part := .namespaceNode
  pathOf name := path ++ "/namespace/" ++ name
  encode := Namespace.toJson

def ofResource (kind : ResourceKind) (path : String) : PartSite Resource where
  part := .resource
  pathOf name := path ++ "/resource-type/" ++ kind.name ++ "/resource-name/" ++ name
  encode := Resource.toJson

end PartSite

/-- The entries of two lists by positions, the longer list facing nothing at its end. An empty entry
takes the other one out of the comparison. -/
def faced : List (Option Event) → List (Option Event) → List (Option Event × Option Event)
  | some new :: latest, some old :: baseline => (some new, some old) :: faced latest baseline
  | _ :: latest, _ :: baseline => (none, none) :: faced latest baseline
  | latest, [] => latest.map fun e => (e, none)
  | [], baseline => baseline.map fun e => (none, e)

/-- The text of a field, empty without an event. -/
def fieldText (e : Option Event) (field : String) : String := (e.map (·.fieldValue field)).getD ""

def fieldDrift? (category : EventCategory) (path : String) (index : Nat)
    (latest baseline : Option Event) (field : String) : Option FieldDrift :=
  let new := fieldText latest field
  let old := fieldText baseline field
  if new = old then none
  else (if new = "" then baseline else latest).map fun payload =>
    { category, path, index, field, payload, old, new, paired := latest.isSome && baseline.isSome }

/-- What is told of a field whose value differs. -/
theorem fieldDrift?_eq_some {category : EventCategory} {path : String} {index : Nat}
    {latest baseline : Option Event} {field : String} {f : FieldDrift}
    (h : fieldDrift? category path index latest baseline field = some f) :
    f.category = category ∧ f.scope = path ++ "/" ++ toString index ++ "/" ++ field ∧
      f.new = fieldText latest field ∧ f.old = fieldText baseline field ∧ f.new ≠ f.old := by
  simp only [fieldDrift?] at h
  split at h
  · simp at h
  · next hne =>
    obtain ⟨payload, -, rfl⟩ := Option.map_eq_some_iff.1 h
    exact ⟨rfl, rfl, rfl, rfl, hne⟩

theorem place_of_fieldDrift? {category : EventCategory} {path : String} {index : Nat}
    {latest baseline : Option Event} {field : String} {f : FieldDrift}
    (h : fieldDrift? category path index latest baseline field = some f) :
    f.path = path ∧ f.field = field := by
  simp only [fieldDrift?] at h
  split at h
  · simp at h
  · obtain ⟨payload, -, rfl⟩ := Option.map_eq_some_iff.1 h
    exact ⟨rfl, rfl⟩

def fieldDrifts (category : EventCategory) (path : String) (latest baseline : List (Option Event)) :
    List FieldDrift :=
  (faced latest baseline).zipIdx.flatMap fun ((new, old), index) =>
    category.comparedFields.filterMap (fieldDrift? category path index new old)

def Resource.fieldDrifts (latest baseline : Resource) (path : String) : List FieldDrift :=
  EventCategory.all.flatMap fun category =>
    WorkloadDrift.fieldDrifts category (path ++ "/events/" ++ category.name)
      (latest.events.get category) (baseline.events.get category)

def Resource.outline (latest baseline : Resource) (path : String) : Forest Drift :=
  .flatMap (latest.fieldDrifts baseline path) fun f => .leaf (.field f)

def Namespace.outline (latest baseline : Namespace) (path : String) : Forest Drift :=
  .flatMap ResourceKind.all fun kind =>
    (PartSite.ofResource kind path).outline Resource.outline (latest.ofKind kind) (baseline.ofKind kind)

def Cluster.outline (latest baseline : Cluster) (path : String) : Forest Drift :=
  (PartSite.ofNamespace path).outline Namespace.outline latest.namespaces baseline.namespaces

/-- The differences of two snapshots: none if they are equal, else a root with all others below. -/
def Workload.outline (latest baseline : Workload) : Forest Drift :=
  if latest = baseline then .nil
  else .cons (.root latest)
    ((PartSite.ofCluster rootPath).outline Cluster.outline latest.clusters baseline.clusters) .nil

def Namespace.hashed (latest baseline : Namespace) : List Json :=
  ResourceKind.all.flatMap fun kind =>
    (latest.ofKind kind).hashed Resource.toJson (fun _ _ => []) (baseline.ofKind kind)

def Cluster.hashed (latest baseline : Cluster) : List Json :=
  latest.namespaces.hashed Namespace.toJson Namespace.hashed baseline.namespaces

/-- The subtrees that are digested when two snapshots are compared. -/
def Workload.hashed (latest baseline : Workload) : List Json :=
  latest.toJson :: baseline.toJson ::
    if latest = baseline then []
    else latest.clusters.hashed Cluster.toJson Cluster.hashed baseline.clusters

end WorkloadDrift
