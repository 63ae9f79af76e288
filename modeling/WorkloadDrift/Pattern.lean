import WorkloadDrift.Regex.Matcher
import WorkloadDrift.Regex.Reader

/-!
# Pattern sets

A criterion's values: texts to be equal to, and regular expressions to be found,
which are marked by `r:`.
-/
namespace WorkloadDrift

/-- An expression as it is used: what it was compiled from, and whether a text has a match of it. -/
structure CompiledRegex where
  pattern : String
  isFoundIn : String → Bool

inductive PatternError where
  | emptyRegex (raw : String)
  | bareFlag (pattern : String)
  | refused (pattern : String) (fault : Regex.Fault)

/-- A number or flag that cannot be taken speaks for itself; all else names the pattern. -/
def PatternError.message : PatternError → String
  | .emptyRegex raw => s!"empty regex pattern in '{raw}'"
  | .bareFlag pattern => s!"regex flag {pattern} provided but no actual pattern"
  | .refused pattern fault =>
    let text := fault.message pattern.toList
    if fault.isMalformed then s!"invalid regex pattern '{pattern}': {text}" else text

structure PatternSet where
  literals : List String := []
  regexes : List CompiledRegex := []

namespace PatternSet

def isConfigured (s : PatternSet) : Bool := !s.literals.isEmpty || !s.regexes.isEmpty

/-- Equal to a literal, or with a match of some expression in it. -/
def admits (s : PatternSet) (text : String) : Bool :=
  s.literals.contains text || s.regexes.any fun r => r.isFoundIn text

/-- Flags with no pattern behind them, which would be found everywhere. -/
def bareFlags : List String := ["(?i)", "(?m)", "(?s)", "(?x)", "(?a)"]

def isQuote (c : Char) : Bool := c = '"' || c = '\''

def compile (raw : String) (pattern : String) : Except PatternError CompiledRegex :=
  if pattern = "" then .error (.emptyRegex raw)
  else if bareFlags.contains pattern then .error (.bareFlag pattern)
  else
    match Regex.read pattern.toList with
    | .ok expr => .ok ⟨pattern, fun text => expr.foundIn text.toList⟩
    | .error fault => .error (.refused pattern fault)

/-- Adds a value as it was given. Blanks around it do not count, nor do quotes around an expression;
an empty text is left out. -/
def addValue (s : PatternSet) (raw : String) : Except PatternError PatternSet :=
  match Text.trimBy Text.isBlank raw.toList with
  | 'r' :: ':' :: pattern => do
    let regex ← compile raw (String.ofList (Text.trimBy isQuote pattern))
    return { s with regexes := s.regexes ++ [regex] }
  | [] => .ok s
  | literal => .ok { s with literals := s.literals ++ [String.ofList literal] }

/-- The set of the values; the first bad expression is the error. -/
def ofValues (values : List String) : Except PatternError PatternSet := values.foldlM addValue {}

end PatternSet
end WorkloadDrift
