import Std.Time
import WorkloadDrift.CommandLine.Run
import WorkloadDrift.Hash.Sha256

/-!
# The program

Gathers what a run depends on, and does what its outcome says.
-/
namespace WorkloadDrift.CommandLine

def readEnvironment : IO Environment :=
  Settings.variableNames.filterMapM fun name => do
    return (← IO.getEnv name).map fun value => (name, value)

def pathFault : IO.Error → PathFault
  | .noFileOrDirectory .. => .missing
  | .inappropriateType .. => .notDirectory
  | .permissionDenied .. => .other "Permission denied"
  | e => .other (toString e)

def lookAt (path : String) : IO (Except PathFault Place) := do
  let here ← IO.currentDir
  if ← (here / path).isDir then return .ok .directory
  try
    return .ok (.file (← IO.FS.readBinFile path).toList)
  catch e => return .error (pathFault e)

/-- A view of the paths that a run may look at. -/
def viewFiles (paths : List String) : IO Files := do
  let places ← paths.mapM fun path => return (path, ← lookAt path)
  return { look := fun path => (places.lookup path).getD (.error .missing) }

def readStamp : IO String := do
  return (← Std.Time.PlainDateTime.now).format "uuuuMMdd-HHmmss"

def gather (args : List String) : IO Surroundings := do
  let environment ← readEnvironment
  let stamp ← readStamp
  let files ← viewFiles (paths environment stamp args)
  return { environment, files, stamp }

def writeOut (file : WrittenFile) : IO Unit := do
  IO.FS.createDirAll (FilePath.parent file.path)
  IO.FS.writeFile file.path file.text

def tell : Line → IO Unit
  | .text s => IO.eprintln s
  | .record r => IO.eprintln r.line

def finish (ending : Ending) : IO UInt32 := do
  if let .brokenOff fault := ending then IO.eprintln fault.message
  return ending.status.toUInt32

def perform (args : List String) : IO UInt32 := do
  let outcome := run Sha256.hexDigest (← gather args) args
  IO.print outcome.printed
  outcome.written.forM writeOut
  outcome.told.forM tell
  finish outcome.ending

end WorkloadDrift.CommandLine

def main (args : List String) : IO UInt32 := WorkloadDrift.CommandLine.perform args
