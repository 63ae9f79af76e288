import WorkloadDrift.CommandLine.Usage
import WorkloadDrift.Journal
import WorkloadDrift.Snapshot.Load
import WorkloadDrift.Text.Terminal

/-!
# Outcomes

All that a run leaves behind: its status, what it printed, and the file that it
wrote.
-/
namespace WorkloadDrift.CommandLine

/-- Why a report could not be made or written. -/
inductive Fault where
  | criteria (error : PatternError)
  | snapshot (failure : LoadFailure)
  | output (fault : WriteFault)

namespace Fault

def message : Fault → String
  | criteria e => e.message
  | snapshot e => e.message
  | output e => e.message

/-- Whether the run ends with a message about the fault, or breaks off. -/
def isReported : Fault → Bool
  | criteria (.refused _ fault) => fault.isMalformed
  | criteria _ => true
  | snapshot (.rejected _) => true
  | snapshot _ => false
  | output _ => false

end Fault

inductive Ending where
  | exit (status : Nat)
  | brokenOff (fault : Fault)

/-- The status of the process; a run that breaks off has failed. -/
def Ending.status : Ending → Nat
  | exit status => status
  | brokenOff _ => 1

/-- What stands on the standard error stream. -/
inductive Line where
  | text (s : String)
  | record (r : Journal.Record)

namespace Line

def told (s : String) : Line := .text (String.ofList (Text.withoutControls s.toList))

/-- A record is shown if its level is; a text always is. -/
def isShown (threshold : LogLevel) : Line → Bool
  | text _ => true
  | record r => r.isShown threshold

end Line

structure WrittenFile where
  path : String
  text : String
  deriving DecidableEq, Repr

structure Outcome where
  ending : Ending
  printed : String
  told : List Line
  written : Option WrittenFile

namespace Outcome

/-- A run that prints nothing but messages. -/
def ofLines (status : Nat) (lines : List String) : Outcome :=
  ⟨.exit status, "", lines.map .told, none⟩

def misused (page : Page) (e : UsageError) : Outcome := ofLines 2 (e.lines page)

/-- The error as the last message. -/
def failed (message : String) : Outcome := ofLines 1 ["Error: " ++ message]

def help (page : Page) : Outcome := ⟨.exit 0, page.usage ++ "\n", [], none⟩

def faulty (fault : Fault) : Outcome :=
  if fault.isReported then failed fault.message else ⟨.brokenOff fault, "", [], none⟩

/-- What was told before comes first. -/
def after (records : List Journal.Record) (o : Outcome) : Outcome :=
  { o with told := records.map .record ++ o.told }

def shownFrom (threshold : LogLevel) (o : Outcome) : Outcome :=
  { o with told := o.told.filter (Line.isShown threshold) }

end Outcome
end WorkloadDrift.CommandLine
