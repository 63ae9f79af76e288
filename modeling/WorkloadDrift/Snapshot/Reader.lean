import WorkloadDrift.Files.Basic
import WorkloadDrift.Snapshot.Basic
import WorkloadDrift.Event.Reader
import WorkloadDrift.Json.Reader

/-!
# Reading snapshots

A snapshot document is an object. Mappings and lists may be absent or null, and
then are empty; a null member of a mapping is left out, and a null entry of a
list is kept. The first fault in document order is reported.
-/
namespace WorkloadDrift

namespace Json.Members

def readMapping (members : Members) (name : String) : Shaped Members :=
  match members.value name with
  | .null => .ok []
  | .obj inner => .ok inner
  | v => .error (.member name .object v.kindName)

def readList (members : Members) (name : String) : Shaped (List Json) :=
  match members.value name with
  | .null => .ok []
  | .arr items => .ok items
  | v => .error (.member name .list v.kindName)

end Json.Members

/-- The children in a mapping, in document order. -/
def readChildren {α : Type} (read : Json.Members → Shaped α) (mapping : String) :
    Json.Members → Shaped (List (String × α))
  | [] => .ok []
  | (_, .null) :: rest => readChildren read mapping rest
  | (name, .obj members) :: rest => do
    let child ← read members
    return (name, child) :: (← readChildren read mapping rest)
  | (name, v) :: _ => .error (.child mapping name v.kindName)

def readNamed {α : Type} (read : Json.Members → Shaped α) (members : Json.Members)
    (mapping : String) : Shaped (Named α) := do
  return .ofList (← readChildren read mapping (← members.readMapping mapping))

def readEntry {α : Type} (read : Json.Members → Shaped α) (list : String) :
    Json → Shaped (Option α)
  | .null => .ok none
  | .obj members => (read members).map some
  | v => .error (.entry list v.kindName)

def readEvents {α : Type} (read : Json.Members → Shaped α) (members : Json.Members)
    (list : String) : Shaped (List (Option α)) := do
  (← members.readList list).mapM (readEntry read list)

def EventLists.read (members : Json.Members) : Shaped EventLists := do
  let file ← readEvents FileEvent.read members "file"
  let process ← readEvents FileEvent.read members "process"
  let ingress ← readEvents NetworkEvent.read members "ingress"
  let egress ← readEvents NetworkEvent.read members "egress"
  let bind ← readEvents NetworkEvent.read members "bind"
  return { file, process, ingress, egress, bind }

/-- Any blank value stands for no labels. -/
def readLabels (members : Json.Members) : Shaped String :=
  match members.value "labels" with
  | .str s => .ok s
  | v => if v.isBlank then .ok "" else .error (.member "labels" .text v.kindName)

def Resource.read (members : Json.Members) : Shaped Resource := do
  let labels ← readLabels members
  let events ← EventLists.read (← members.readMapping "events")
  return { labels, events }

def Namespace.read (members : Json.Members) : Shaped Namespace := do
  let resources (kind : ResourceKind) := readNamed Resource.read members kind.wireKey
  let deployments ← resources .deployment
  let replicaSets ← resources .replicaSet
  let statefulSets ← resources .statefulSet
  let daemonSets ← resources .daemonSet
  let jobs ← resources .job
  let cronJobs ← resources .cronJob
  return { deployments, replicaSets, statefulSets, daemonSets, jobs, cronJobs }

def Cluster.read (members : Json.Members) : Shaped Cluster := do
  return ⟨← readNamed Namespace.read members "namespaces"⟩

def Workload.read (members : Json.Members) : Shaped Workload := do
  return ⟨← readNamed Cluster.read members "clusters"⟩

/-- Why a document is not taken for a snapshot. -/
inductive Rejection where
  | notAnObject (found : String)
  | misshapen (error : ShapeError)
  | notJson (error : Json.ReadError)
  | unreadable (fault : PathFault)
  deriving DecidableEq, Repr

def Rejection.message : Rejection → String
  | notAnObject found => s!"top level must be an object, got {found}"
  | misshapen error => error.message
  | notJson error => s!"invalid JSON: {error.message}"
  | unreadable fault => fault.message

structure LoadError where
  source : String
  rejection : Rejection
  deriving DecidableEq, Repr

def LoadError.message (e : LoadError) : String :=
  s!"Failed to load snapshot '{e.source}': {e.rejection.message}"

/-- The snapshot that a document holds; `source` names the document in errors. -/
def Workload.ofJson (source : String) : Json → Except LoadError Workload
  | .obj members => (Workload.read members).mapError fun e => ⟨source, .misshapen e⟩
  | v => .error ⟨source, .notAnObject v.kindName⟩

end WorkloadDrift
