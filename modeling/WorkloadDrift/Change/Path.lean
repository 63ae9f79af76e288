import WorkloadDrift.Named
import WorkloadDrift.Text.Segment

/-!
# Change paths

A path names its root and then alternates between keys and names. A key that
comes again overrides, and a last segment without a partner is left out.
-/
namespace WorkloadDrift.ChangePath

def pairs : List String → List (String × String)
  | key :: name :: rest => (key, name) :: pairs rest
  | _ => []

def segments (path : String) : List String := (Text.splitAt '/' path.toList).map String.ofList

def info (path : String) : Named String := .ofList (pairs (segments path).tail)

/-- Kind and name of the resource that a path leads to, empty if it leads to none. -/
def workload (path : String) : String :=
  let kind := ((info path).get? "resource-type").getD ""
  let name := ((info path).get? "resource-name").getD ""
  if kind = "" ∨ name = "" then "" else kind ++ "/" ++ name

end WorkloadDrift.ChangePath
