import WorkloadDrift.CommandLine.Outcome
import WorkloadDrift.CommandLine.Request

/-!
# Runs

The outcome of a command line. A report goes to one place: the file asked for,
else a file of its own if it is to be saved, else the standard output. Whatever
goes wrong before, nothing is printed and no file is written.
-/
namespace WorkloadDrift.CommandLine

/-- What a run depends on besides its arguments; `stamp` tells saved reports apart. -/
structure Surroundings where
  environment : Environment
  files : Files
  stamp : String

namespace ReportRequest

/-- The file that the report goes to, if it goes to one. -/
def target? (settings : Settings) (stamp : String) (q : ReportRequest) : Option String :=
  match q.output with
  | some path => some path
  | none => if q.save then some (settings.outputDirectory ++ "diff_" ++ stamp ++ ".json") else none

def payload (settings : Settings) (q : ReportRequest) (r : Report) : String :=
  (r.toJson (q.includeCanceled || settings.includeCanceled)).pretty

def summary (r : Report) : String := s!"{r.active} active change(s), {r.canceled} canceled"

def status (q : ReportRequest) (r : Report) : Nat := if q.failOnDrift && r.hasDrift then 1 else 0

def deliver (s : Surroundings) (settings : Settings) (q : ReportRequest) (r : Report) : Outcome :=
  let text := q.payload settings r ++ "\n"
  let told := [Line.told (summary r)]
  match q.target? settings s.stamp with
  | none => ⟨.exit (q.status r), text, told, none⟩
  | some path =>
    match s.files.writeFault? path with
    | some fault => .faulty (.output fault)
    | none =>
      Outcome.after [Journal.reportWritten (FilePath.normal path)]
        ⟨.exit (q.status r), "", told, some ⟨path, text⟩⟩

/-- An empty path stands for the one in the settings. -/
def baselinePath (settings : Settings) (q : ReportRequest) : String :=
  match q.baseline with
  | none | some "" => settings.baselinePath
  | some path => path

/-- The criteria are read first, then the latest snapshot, then the baseline. -/
def run (digest : Digest) (s : Surroundings) (settings : Settings) (q : ReportRequest) : Outcome :=
  match Criteria.ofValues q.criteria with
  | .error e => .faulty (.criteria e)
  | .ok criteria =>
    match Workload.load s.files q.latest with
    | .error e => .faulty (.snapshot e)
    | .ok latest =>
      Outcome.after [Journal.snapshotLoaded q.latest latest] <|
        match Workload.load s.files (q.baselinePath settings) with
        | .error e => .faulty (.snapshot e)
        | .ok baseline =>
          let r := Report.build digest latest baseline (some criteria)
          Outcome.after
            (Journal.snapshotLoaded (q.baselinePath settings) baseline :: Journal.report criteria r)
            (q.deliver s settings r)

end ReportRequest

/-- The command that makes a report, at a level that may replace the one of the settings. -/
def runReport (digest : Digest) (s : Surroundings) (logLevel : Option LogLevel) (args : List String) :
    Outcome :=
  match Settings.ofEnvironment s.environment with
  | .error e => .failed e.message
  | .ok settings =>
    match ReportRequest.read s.files args with
    | .error e => .misused .report e
    | .ok none => .help .report
    | .ok (some q) => (q.run digest s settings).shownFrom (logLevel.getD settings.logLevel)

/-- A command that is not known is read as an option once more. -/
def runUnknown (name : String) (args : List String) : Outcome :=
  match ProgramRequest.read (name :: args) with
  | .error e => .misused .program e
  | .ok none => .help .program
  | .ok (some _) => .misused .program (.unknownCommand name)

def run (digest : Digest) (s : Surroundings) (args : List String) : Outcome :=
  match ProgramRequest.read args with
  | .error e => .misused .program e
  | .ok none => .help .program
  | .ok (some q) =>
    match q.command with
    | [] => if args.isEmpty then .ofLines 2 [Page.program.usage] else .misused .program .noCommand
    | "report" :: args => runReport digest s q.logLevel args
    | name :: args => runUnknown name args

/-- The paths that the making of a report may look at. -/
def reportPaths (settings : Settings) (stamp : String) (a : Arguments ReportOption) : List String :=
  let q := ReportRequest.ofArguments a ((a.value? .latest).getD "")
  let target := (q.target? settings stamp).toList
  [q.latest, q.baselinePath settings] ++ target ++ target.map FilePath.parent

/-- The paths that a run may look at. -/
def paths (environment : Environment) (stamp : String) (args : List String) : List String :=
  match ProgramRequest.read args, Settings.ofEnvironment environment with
  | .ok (some q), .ok settings =>
    match ReportOption.table.read true q.command.tail with
    | .ok a => reportPaths settings stamp a
    | .error _ => []
  | _, _ => []

end WorkloadDrift.CommandLine
