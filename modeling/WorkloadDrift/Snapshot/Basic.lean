import WorkloadDrift.Digest
import WorkloadDrift.Named
import WorkloadDrift.Event.Basic

/-!
# Snapshots

A tree of clusters, namespaces and resources with the events seen at each
resource. Names stand in the mappings above a subtree and are no part of it.
-/
namespace WorkloadDrift

inductive ResourceKind where
  | deployment | replicaSet | statefulSet | daemonSet | job | cronJob
  deriving DecidableEq, Repr

namespace ResourceKind

def all : List ResourceKind := [deployment, replicaSet, statefulSet, daemonSet, job, cronJob]

/-- The name in the path of a change. -/
def name : ResourceKind → String
  | deployment => "deployment"
  | replicaSet => "replicaset"
  | statefulSet => "statefulset"
  | daemonSet => "daemonset"
  | job => "job"
  | cronJob => "cronjob"

/-- The name of the mapping in a snapshot document. -/
def wireKey : ResourceKind → String
  | deployment => "deployments"
  | replicaSet => "replicaSets"
  | statefulSet => "statefulSets"
  | daemonSet => "daemonSets"
  | job => "jobs"
  | cronJob => "cronJobs"

end ResourceKind

/-- Events in the order seen; an entry may be empty. -/
structure EventLists where
  file : List (Option FileEvent)
  process : List (Option FileEvent)
  ingress : List (Option NetworkEvent)
  egress : List (Option NetworkEvent)
  bind : List (Option NetworkEvent)
  deriving DecidableEq, Repr

def nullable {α : Type} (encode : α → Json) (v : Option α) : Json := (v.map encode).getD .null

namespace EventLists

def get (e : EventLists) : EventCategory → List (Option Event)
  | .file => e.file.map (·.map .file)
  | .process => e.process.map (·.map .file)
  | .ingress => e.ingress.map (·.map .network)
  | .egress => e.egress.map (·.map .network)
  | .bind => e.bind.map (·.map .network)

/-- The number of entries, the empty ones included. -/
def total (e : EventLists) : Nat :=
  e.file.length + e.process.length + e.ingress.length + e.egress.length + e.bind.length

def toJson (e : EventLists) : Json := .obj [
  ("file", .arr (e.file.map (nullable FileEvent.toJson))),
  ("process", .arr (e.process.map (nullable FileEvent.toJson))),
  ("ingress", .arr (e.ingress.map (nullable NetworkEvent.toJson))),
  ("egress", .arr (e.egress.map (nullable NetworkEvent.toJson))),
  ("bind", .arr (e.bind.map (nullable NetworkEvent.toJson)))]

end EventLists

/-- One running resource, such as a deployment. -/
structure Resource where
  labels : String
  events : EventLists
  deriving DecidableEq, Repr

structure Namespace where
  deployments : Named Resource
  replicaSets : Named Resource
  statefulSets : Named Resource
  daemonSets : Named Resource
  jobs : Named Resource
  cronJobs : Named Resource
  deriving DecidableEq

structure Cluster where
  namespaces : Named Namespace
  deriving DecidableEq

structure Workload where
  clusters : Named Cluster
  deriving DecidableEq

def Resource.toJson (r : Resource) : Json :=
  .obj [("labels", .str r.labels), ("events", r.events.toJson)]

namespace Namespace

def ofKind (n : Namespace) : ResourceKind → Named Resource
  | .deployment => n.deployments
  | .replicaSet => n.replicaSets
  | .statefulSet => n.statefulSets
  | .daemonSet => n.daemonSets
  | .job => n.jobs
  | .cronJob => n.cronJobs

def toJson (n : Namespace) : Json :=
  .obj (ResourceKind.all.map fun kind => (kind.wireKey, (n.ofKind kind).toJson Resource.toJson))

def totalEvents (n : Namespace) : Nat :=
  (ResourceKind.all.flatMap fun kind => (n.ofKind kind).values).foldl
    (fun count r => count + r.events.total) 0

end Namespace

def Cluster.toJson (c : Cluster) : Json := .obj [("namespaces", c.namespaces.toJson Namespace.toJson)]

def Workload.toJson (w : Workload) : Json := .obj [("clusters", w.clusters.toJson Cluster.toJson)]

def Workload.totalEvents (w : Workload) : Nat :=
  (w.clusters.values.flatMap fun c => c.namespaces.values).foldl
    (fun count n => count + n.totalEvents) 0

def Resource.contentHash (digest : Digest) (r : Resource) : String := digest.value r.toJson
def Namespace.contentHash (digest : Digest) (n : Namespace) : String := digest.value n.toJson
def Cluster.contentHash (digest : Digest) (c : Cluster) : String := digest.value c.toJson
def Workload.contentHash (digest : Digest) (w : Workload) : String := digest.value w.toJson

end WorkloadDrift
