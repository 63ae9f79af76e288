import WorkloadDrift.CommandLine.Usage
import WorkloadDrift.Criteria
import WorkloadDrift.Files.Basic

/-!
# Requests

What a command line asks for. The options of the program come before the
command, those of the command after it.
-/
namespace WorkloadDrift.CommandLine

inductive ProgramOption where
  | logLevel
  | help
  deriving DecidableEq, Repr

def programOptions : OptionTable ProgramOption where
  all := [.logLevel, .help]
  long
    | .logLevel => "--log-level"
    | .help => "--help"
  short? _ := none
  takesValue o := o = .logLevel

/-- The level that replaces the one of the settings, and the command with its arguments. -/
structure ProgramRequest where
  logLevel : Option LogLevel
  command : List String
  deriving DecidableEq, Repr

/-- A request, unless help is asked for. -/
def ProgramRequest.read (args : List String) : Except UsageError (Option ProgramRequest) := do
  let a ← (programOptions.read false args).mapError .option
  if a.has .help then return none
  let logLevel ← (a.value? .logLevel).mapM fun value => (LogLevel.ofName value).mapError .logLevel
  return some ⟨logLevel, a.rest⟩

inductive ReportOption where
  | latest | baseline
  | workload | source | destination | ignoreCommand | ignorePath
  | includeCanceled | output | save | failOnDrift | help
  deriving DecidableEq, Repr

namespace ReportOption

def all : List ReportOption := [latest, baseline, workload, source, destination, ignoreCommand,
  ignorePath, includeCanceled, output, save, failOnDrift, help]

def long : ReportOption → String
  | latest => "--latest"
  | baseline => "--baseline"
  | workload => "--workload"
  | source => "--source"
  | destination => "--destination"
  | ignoreCommand => "--ignore-command"
  | ignorePath => "--ignore-path"
  | includeCanceled => "--include-canceled"
  | output => "--output"
  | save => "--save"
  | failOnDrift => "--fail-on-drift"
  | help => "--help"

def short? : ReportOption → Option Char
  | source => some 's'
  | destination => some 'd'
  | output => some 'o'
  | _ => none

def takesValue : ReportOption → Bool
  | includeCanceled | save | failOnDrift | help => false
  | _ => true

/-- Whether the value is the path of a file. -/
def isPath : ReportOption → Bool
  | latest | baseline | output => true
  | _ => false

def table : OptionTable ReportOption := ⟨all, long, short?, takesValue⟩

end ReportOption

structure ReportRequest where
  latest : String
  baseline : Option String
  criteria : CriteriaValues
  includeCanceled : Bool
  output : Option String
  save : Bool
  failOnDrift : Bool
  deriving DecidableEq, Repr

namespace ReportRequest

def ofArguments (a : Arguments ReportOption) (latest : String) : ReportRequest where
  latest
  baseline := a.value? .baseline
  criteria := {
    workloads := a.values .workload
    sources := a.values .source
    destinations := a.values .destination
    ignoredCommands := a.values .ignoreCommand
    ignoredPaths := a.values .ignorePath }
  includeCanceled := a.has .includeCanceled
  output := a.value? .output
  save := a.has .save
  failOnDrift := a.has .failOnDrift

/-- The first option given whose file is a directory. -/
def directoryError? (files : Files) (a : Arguments ReportOption) : Option UsageError :=
  a.given.findSome? fun (o, _) =>
    let path := (a.value? o).getD ""
    if o.isPath && files.isDirectory path then some (.directory (ReportOption.table.names o) path)
    else none

/-- Checks the arguments in the order in which the errors are told. -/
def check (files : Files) (a : Arguments ReportOption) : Except UsageError ReportRequest :=
  match directoryError? files a, a.value? .latest with
  | some e, _ => .error e
  | none, none => .error .noLatest
  | none, some latest => if a.rest.isEmpty then .ok (ofArguments a latest) else .error (.extra a.rest)

/-- A request, unless help is asked for. -/
def read (files : Files) (args : List String) : Except UsageError (Option ReportRequest) := do
  let a ← (ReportOption.table.read true args).mapError .option
  if a.has .help then return none
  return some (← check files a)

end ReportRequest
end WorkloadDrift.CommandLine
