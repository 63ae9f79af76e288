import WorkloadDrift.CommandLine.Options
import WorkloadDrift.Settings
import WorkloadDrift.Text.Quoted

/-!
# Usage errors

What is wrong with a command line, and how it is told.
-/
namespace WorkloadDrift.CommandLine

/-- The program and its commands have a page of help each. -/
inductive Page where
  | program
  | report
  deriving DecidableEq, Repr

namespace Page

def command : Page → String
  | program => "kubedrift"
  | report => "kubedrift report"

def usage : Page → String
  | program => "Usage: kubedrift [OPTIONS] COMMAND [ARGS]..."
  | report => "Usage: kubedrift report [OPTIONS]"

def hint (p : Page) : String := "Try '" ++ p.command ++ " --help' for help."

end Page

inductive UsageError where
  | option (error : OptionError)
  | logLevel (error : UnknownLogLevel)
  | noCommand
  | unknownCommand (name : String)
  | directory (names : List String) (path : String)
  | noLatest
  | extra (arguments : List String)
  deriving DecidableEq, Repr

def suggestion : List String → String
  | [] => ""
  | [name] => " Did you mean " ++ name ++ "?"
  | names => " (Possible options: " ++ ", ".intercalate (names.mergeSort fun a b => a ≤ b) ++ ")"

def OptionError.message : OptionError → String
  | unknown name close => "No such option: " ++ name ++ suggestion close
  | valueMissing name => "Option " ++ Text.quotedString name ++ " requires an argument."
  | valueUnexpected name => "Option " ++ Text.quotedString name ++ " does not take a value."

def invalidValue (names : List String) (reason : String) : String :=
  "Invalid value for " ++ " / ".intercalate (names.map Text.quotedString) ++ ": " ++ reason

namespace UsageError

def message : UsageError → String
  | option e => e.message
  | logLevel e => invalidValue ["--log-level"] e.message
  | noCommand => "Missing command."
  | unknownCommand name => "No such command " ++ Text.quotedString name ++ "."
  | directory names path =>
    invalidValue names ("File " ++ Text.quotedString path ++ " is a directory.")
  | noLatest => "Missing option '--latest'."
  | extra arguments =>
    let kind := if arguments.length = 1 then "argument" else "arguments"
    "Got unexpected extra " ++ kind ++ " (" ++ " ".intercalate arguments ++ ")"

/-- A value too many or too few is told without the usage. -/
def showsUsage : UsageError → Bool
  | option (.valueMissing _) | option (.valueUnexpected _) => false
  | _ => true

def lines (page : Page) (e : UsageError) : List String :=
  (if e.showsUsage then [page.usage, page.hint] else []) ++ ["Error: " ++ e.message]

end UsageError
end WorkloadDrift.CommandLine
