import WorkloadDrift.Files.Path
import WorkloadDrift.Text.Quoted

/-!
# Files

What a program can see of files: a place for each path, or why there is none.
-/
namespace WorkloadDrift

inductive Place where
  | file (bytes : List UInt8)
  | directory
  deriving DecidableEq, Repr

/-- Why a path leads to no readable file. -/
inductive PathFault where
  | missing
  | isDirectory
  | notDirectory
  | other (text : String)
  deriving DecidableEq, Repr

def PathFault.message : PathFault → String
  | missing => "No such file or directory"
  | isDirectory => "Is a directory"
  | notDirectory => "Not a directory"
  | other text => text

structure Files where
  look : String → Except PathFault Place

namespace Files

def read (files : Files) (path : String) : Except PathFault (List UInt8) :=
  match files.look path with
  | .ok (.file bytes) => .ok bytes
  | .ok .directory => .error .isDirectory
  | .error fault => .error fault

/-- The empty path names no directory. -/
def isDirectory (files : Files) (path : String) : Bool :=
  match files.look path with
  | .ok .directory => path ≠ ""
  | _ => false

end Files

/-- Why a file cannot be written. -/
inductive WriteFault where
  | parentIsFile (path : String)
  | parentNotDirectory (path : String)
  | targetIsDirectory (path : String)
  deriving DecidableEq, Repr

def WriteFault.message : WriteFault → String
  | parentIsFile path => "[Errno 17] File exists: " ++ Text.quotedString path
  | parentNotDirectory path => "[Errno 20] Not a directory: " ++ Text.quotedString path
  | targetIsDirectory path => "[Errno 21] Is a directory: " ++ Text.quotedString path

/-- Directories on the way to a file are made, but a file there is in the way. -/
def Files.writeFault? (files : Files) (path : String) : Option WriteFault :=
  let parent := FilePath.parent path
  match files.look parent, files.look path with
  | .ok (.file _), _ => some (.parentIsFile parent)
  | .error .notDirectory, _ => some (.parentNotDirectory parent)
  | _, .ok .directory => some (.targetIsDirectory (FilePath.normal path))
  | _, _ => none

end WorkloadDrift
