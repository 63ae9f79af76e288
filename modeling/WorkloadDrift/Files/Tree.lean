import WorkloadDrift.Files.Basic

/-!
# File trees

The files below a working directory as a value. Nothing is known of what is
around it, except that it lies in directories.
-/
namespace WorkloadDrift

inductive FileTree where
  | file (bytes : List UInt8)
  | directory (entries : List (String × FileTree))
  deriving Inhabited

namespace FileTree

def empty : FileTree := .directory []

def place : FileTree → Place
  | .file bytes => .file bytes
  | .directory _ => .directory

/-- Follows steps from a place with the directories above it. -/
def follow (here : FileTree) (above : List FileTree) : List String → Except PathFault FileTree
  | [] => .ok here
  | step :: steps =>
    match here with
    | .file _ => .error .notDirectory
    | .directory entries =>
      if step = ".." then
        match above with
        | [] => follow empty [] steps
        | parent :: above => follow parent above steps
      else
        match entries.lookup step with
        | none => .error .missing
        | some next => follow next (here :: above) steps

/-- What a path leads to; an absolute one starts outside of the tree. -/
def get (tree : FileTree) (path : String) : Except PathFault FileTree :=
  (if FilePath.root path = "" then tree else empty).follow [] (FilePath.steps path)

def files (tree : FileTree) : Files where
  look path := (tree.get path).map place

/-- Puts a file at the end of some steps, with the directories on the way. -/
def insert (content : FileTree) : List String → FileTree → FileTree
  | [], _ => content
  | step :: steps, tree =>
    let entries := match tree with
      | .directory entries => entries
      | .file _ => []
    let inner := insert content steps ((entries.lookup step).getD empty)
    .directory ((step, inner) :: entries.filter (·.1 ≠ step))

end FileTree
end WorkloadDrift
