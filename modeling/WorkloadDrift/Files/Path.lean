import WorkloadDrift.Text.Segment

/-!
# File paths

A path is read as the slashes that it starts with and its steps.
-/
namespace WorkloadDrift.FilePath

/-- The steps of a path; empty ones and those to the same place are left out. -/
def steps (path : String) : List String :=
  ((Text.splitAt '/' path.toList).filter fun s => s ≠ [] ∧ s ≠ ['.']).map String.ofList

/-- The slashes that a path starts with: exactly two are kept. -/
def root (path : String) : String :=
  match path.toList with
  | '/' :: '/' :: '/' :: _ => "/"
  | '/' :: '/' :: _ => "//"
  | '/' :: _ => "/"
  | _ => ""

def ofSteps (root : String) (steps : List String) : String :=
  if root = "" ∧ steps.isEmpty then "." else root ++ "/".intercalate steps

/-- The path without steps that lead nowhere. -/
def normal (path : String) : String := ofSteps (root path) (steps path)

/-- The directory that a file is written into. -/
def parent (path : String) : String := ofSteps (root path) (steps path).dropLast

/-- The steps of a path in which each step up takes back the one before it. -/
def settledSteps (path : String) : List String :=
  ((steps path).foldl (fun taken step =>
    if step = ".." then taken.tail else step :: taken) []).reverse

end WorkloadDrift.FilePath
