import WorkloadDrift.Named

/-!
# Settings

What the environment says about inputs, outputs and logging.
-/
namespace WorkloadDrift

inductive LogLevel where
  | debug | info | warning | error
  deriving DecidableEq, Repr

namespace LogLevel

def all : List LogLevel := [debug, info, warning, error]

def name : LogLevel → String
  | debug => "debug"
  | info => "info"
  | warning => "warning"
  | error => "error"

def rank : LogLevel → Nat
  | debug => 0
  | info => 1
  | warning => 2
  | error => 3

end LogLevel

structure UnknownLogLevel where
  value : String
  deriving DecidableEq, Repr

def UnknownLogLevel.message (e : UnknownLogLevel) : String :=
  "Invalid log level: " ++ e.value ++ ". Must be one of \x7b...\x7d"

/-- ASCII letters suffice, as no other letter has one of the names' letters as its lower case. -/
def lower (s : String) : String := String.ofList (s.toList.map Char.toLower)

/-- The level of a name in any case. -/
def LogLevel.ofName (value : String) : Except UnknownLogLevel LogLevel :=
  match all.find? fun level => level.name = lower value with
  | some level => .ok level
  | none => .error ⟨value⟩

structure Settings where
  baselinePath : String
  outputDirectory : String
  includeCanceled : Bool
  logLevel : LogLevel
  deriving DecidableEq, Repr

abbrev Environment := List (String × String)

namespace Settings

def variableName (setting : String) : String := "KUBEDRIFT_" ++ setting

/-- The variables that are looked at. -/
def variableNames : List String :=
  ["BASELINE_PATH", "OUTPUT_DIR", "INCLUDE_CANCELED", "LOG_LEVEL"].map variableName

def setting (env : Environment) (name default : String) : String :=
  (env.lookup (variableName name)).getD default

def isYes (value : String) : Bool := ["true", "1", "yes"].contains (lower value)

/-- Report names are appended to the directory as it is, so it ends in a slash unless it is empty. -/
def asDirectory (value : String) : String :=
  if value = "" ∨ value.toList.getLast? = some '/' then value else value ++ "/"

def ofEnvironment (env : Environment) : Except UnknownLogLevel Settings := do
  let logLevel ← LogLevel.ofName (setting env "LOG_LEVEL" "info")
  return {
    baselinePath := setting env "BASELINE_PATH" "baseline/report.json"
    outputDirectory := asDirectory (setting env "OUTPUT_DIR" "kubedrift_out/reports/")
    includeCanceled := isYes (setting env "INCLUDE_CANCELED" "false")
    logLevel }

end Settings
end WorkloadDrift
