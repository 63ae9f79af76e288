import WorkloadDrift.CommandLine.Run
import WorkloadDrift.Proofs.Report.Counts
import WorkloadDrift.Proofs.Snapshot.Reloading

/-!
# The gate

A run that asks for a report either fails and leaves nothing behind, or brings
the report to one place and says by its status whether drift is left. What can
fail is reading the criteria and loading the two snapshots; comparing cannot.
-/
namespace WorkloadDrift

/-! ## Texts without controls -/

namespace CommandLine

/-! ## What an outcome says -/

def Line.text? : Line → Option String
  | text s => some s
  | record _ => none

namespace Outcome

/-- The messages among the lines that are told. -/
def messages (o : Outcome) : List String := o.told.filterMap Line.text?

variable (o : Outcome)

@[simp] theorem messages_after (records : List Journal.Record) :
    (o.after records).messages = o.messages := by
  have hrecords : (records.map Line.record).filterMap Line.text? = [] := by
    simp [List.filterMap_map, Function.comp_def, Line.text?]
  rw [messages, after, List.filterMap_append, hrecords]
  rfl

@[simp] theorem messages_shownFrom (threshold : LogLevel) :
    (o.shownFrom threshold).messages = o.messages := by
  rw [messages, shownFrom, messages, List.filterMap_filter]
  apply List.filterMap_congr
  intro line _
  cases line with
  | text s => rfl
  | record r => simp [Line.text?]

/-- A run that fails, prints nothing and writes no file. -/
structure IsBarren : Prop where
  failed : o.ending.status ≠ 0
  printed : o.printed = ""
  written : o.written = none

variable {o}

theorem IsBarren.after (h : o.IsBarren) (records : List Journal.Record) : (o.after records).IsBarren :=
  ⟨h.failed, h.printed, h.written⟩

theorem IsBarren.shownFrom (h : o.IsBarren) (threshold : LogLevel) :
    (o.shownFrom threshold).IsBarren :=
  ⟨h.failed, h.printed, h.written⟩

variable {target? : Option String} {text message : String} {status : Nat}

/-- A run that ends with a status and one message, and brings a text to a file, or else prints it. -/
structure Brings (o : Outcome) (target? : Option String) (text message : String) (status : Nat) :
    Prop where
  ending : o.ending = .exit status
  messages : o.messages = [message]
  printed : o.printed = if target?.isSome then "" else text
  written : o.written = target?.map fun path => ⟨path, text⟩

theorem Brings.after (h : o.Brings target? text message status) (records : List Journal.Record) :
    (o.after records).Brings target? text message status :=
  ⟨h.ending, (messages_after o records).trans h.messages, h.printed, h.written⟩

theorem Brings.shownFrom (h : o.Brings target? text message status) (threshold : LogLevel) :
    (o.shownFrom threshold).Brings target? text message status :=
  ⟨h.ending, (messages_shownFrom o threshold).trans h.messages, h.printed, h.written⟩

end Outcome

/-! ## Reports on the way out -/

namespace ReportRequest

variable {s : Surroundings} {settings : Settings} {q : ReportRequest}

/-- Whether the file that the report goes to, if it goes to one, can be written. -/
def IsWritable (s : Surroundings) (settings : Settings) (q : ReportRequest) : Prop :=
  ∀ path, q.target? settings s.stamp = some path → s.files.writeFault? path = none

end ReportRequest

/-! ## Runs -/

/-- Whether a command line, under its environment, asks for a report and nothing is wrong with the
command line, with the settings and with the place that the report is to go to. -/
structure Accepted (s : Surroundings) (args : List String) (settings : Settings) (q : ReportRequest) :
    Prop where
  configured : Settings.ofEnvironment s.environment = .ok settings
  requested : ∃ logLevel rest, ProgramRequest.read args = .ok (some ⟨logLevel, "report" :: rest⟩) ∧
    ReportRequest.read s.files rest = .ok (some q)
  writable : q.IsWritable s settings

variable {s : Surroundings} {args : List String} {settings : Settings} {q : ReportRequest}

theorem Accepted.run_eq (h : Accepted s args settings q) (digest : Digest) :
    ∃ threshold, run digest s args = (q.run digest s settings).shownFrom threshold := by
  obtain ⟨logLevel, rest, hprogram, hrequest⟩ := h.requested
  refine ⟨logLevel.getD settings.logLevel, ?_⟩
  simp only [run, hprogram, runReport, h.configured, hrequest]

end CommandLine
end WorkloadDrift
