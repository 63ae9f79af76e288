import WorkloadDrift.Snapshot.Reader
import WorkloadDrift.Text.Newline
import WorkloadDrift.Text.Utf8

/-!
# Loading snapshots

A snapshot file is a JSON document in UTF-8.
-/
namespace WorkloadDrift

/-- Why a file gives no snapshot. A path that no file can have, a text that cannot be decoded, or a
number in it that cannot be read, is reported without the file. -/
inductive LoadFailure where
  | rejected (error : LoadError)
  | nulInPath
  | undecodable (fault : Utf8.Fault)
  | oversizedInteger (digits : Nat)
  deriving DecidableEq, Repr

def LoadFailure.message : LoadFailure → String
  | rejected error => error.message
  | nulInPath => "embedded null byte"
  | undecodable fault => fault.message
  | oversizedInteger digits => Decimal.oversizedMessage digits

/-- The text of a file, with every line ended by a line feed. -/
def decodeText (bytes : List UInt8) : Except LoadFailure (List Char) :=
  match Utf8.decode bytes with
  | .ok cs => .ok (Text.unifyNewlines cs)
  | .error fault => .error (.undecodable fault)

def parseDocument (source : String) (text : List Char) : Except LoadFailure Json :=
  match Json.ofChars text with
  | .ok v => .ok v
  | .error (.oversizedInteger digits) => .error (.oversizedInteger digits)
  | .error e => .error (.rejected ⟨source, .notJson e⟩)

def Workload.ofBytes (source : String) (bytes : List UInt8) : Except LoadFailure Workload := do
  let document ← parseDocument source (← decodeText bytes)
  (Workload.ofJson source document).mapError .rejected

def Workload.load (files : Files) (path : String) : Except LoadFailure Workload :=
  if '\x00' ∈ path.toList then .error .nulInPath
  else
    match files.read path with
    | .ok bytes => Workload.ofBytes path bytes
    | .error fault => .error (.rejected ⟨path, .unreadable fault⟩)

end WorkloadDrift
