import WorkloadDrift.Decimal.Digits
import WorkloadDrift.Text.Quoted

/-!
# Faults of patterns

What is wrong with a pattern, and at which character.
-/
namespace WorkloadDrift.Regex

inductive FlagFault where
  | unended
  | unknown
  | noneTurnedOff
  | unendedTurnedOff
  | locale
  | conflicting
  | typeTurnedOff
  | globalTurnedOn
  | globalTurnedOff
  | turnedOnAndOff
  | notAtStart
  deriving DecidableEq, Repr

def FlagFault.message : FlagFault → String
  | unended => "missing -, : or )"
  | unknown => "unknown flag"
  | noneTurnedOff => "missing flag"
  | unendedTurnedOff => "missing :"
  | locale => "bad inline flags: cannot use 'L' flag with a str pattern"
  | conflicting => "bad inline flags: flags 'a', 'u' and 'L' are incompatible"
  | typeTurnedOff => "bad inline flags: cannot turn off flags 'a', 'u' and 'L'"
  | globalTurnedOn => "bad inline flags: cannot turn on global flag"
  | globalTurnedOff => "bad inline flags: cannot turn off global flag"
  | turnedOnAndOff => "bad inline flags: flag turned on and off"
  | notAtStart => "global flags not at the start of the expression"

inductive Reason where
  | danglingEscape
  | badEscape (text : List Char)
  | incompleteEscape (text : List Char)
  | octalTooLarge (text : List Char)
  | missingBrace
  | undefinedCharacter (name : List Char)
  | missingName (what : String)
  | unterminatedName (terminator : Char)
  | badName (name : List Char)
  | unknownName (name : List Char)
  | redefinedName (name : List Char) (index former : Nat)
  | badGroupNumber
  | invalidReference (index : Nat)
  | openReference
  | behindReference
  | unknownExtension (text : List Char)
  | unterminatedSet
  | badRange (low high : List Char)
  | nothingToRepeat
  | multipleRepeat
  | leastAboveMost
  | unterminatedComment
  | unterminatedGroup
  | unbalancedParenthesis
  | unexpectedEnd
  | tooManyBranches
  | flags (fault : FlagFault)
  deriving DecidableEq, Repr

def shown (text : List Char) : String := String.ofList (Text.quoted text)

def Reason.message : Reason → String
  | danglingEscape => "bad escape (end of pattern)"
  | badEscape text => s!"bad escape {String.ofList text}"
  | incompleteEscape text => s!"incomplete escape {String.ofList text}"
  | octalTooLarge text => s!"octal escape value {String.ofList text} outside of range 0-0o377"
  | missingBrace => "missing \x7b"
  | undefinedCharacter name => s!"undefined character name {shown name}"
  | missingName what => s!"missing {what}"
  | unterminatedName terminator => s!"missing {terminator}, unterminated name"
  | badName name => s!"bad character in group name {shown name}"
  | unknownName name => s!"unknown group name {shown name}"
  | redefinedName name index former =>
    s!"redefinition of group name {shown name} as group {index}; was group {former}"
  | badGroupNumber => "bad group number"
  | invalidReference index => s!"invalid group reference {index}"
  | openReference => "cannot refer to an open group"
  | behindReference => "cannot refer to group defined in the same lookbehind subpattern"
  | unknownExtension text => s!"unknown extension ?{String.ofList text}"
  | unterminatedSet => "unterminated character set"
  | badRange low high => s!"bad character range {String.ofList low}-{String.ofList high}"
  | nothingToRepeat => "nothing to repeat"
  | multipleRepeat => "multiple repeat"
  | leastAboveMost => "min repeat greater than max repeat"
  | unterminatedComment => "missing ), unterminated comment"
  | unterminatedGroup => "missing ), unterminated subpattern"
  | unbalancedParenthesis => "unbalanced parenthesis"
  | unexpectedEnd => "unexpected end of pattern"
  | tooManyBranches => "conditional backref with more than two branches"
  | flags fault => fault.message

/-- A pattern is refused with a reason at a place, or as a whole. -/
inductive Fault where
  | at (reason : Reason) (place : Nat)
  | unevenBehind
  | conflictingTypes
  | hugeRepeat
  | oversizedRepeat (digits : Nat)
  deriving DecidableEq, Repr

/-- The place is given as a line and column too if the pattern has several lines. -/
def Fault.message (pattern : List Char) : Fault → String
  | .at reason place =>
    let before := pattern.take place
    let text := s!"{reason.message} at position {place}"
    if pattern.contains '\n' then
      let line := before.count '\n' + 1
      let column := (before.reverse.takeWhile (· ≠ '\n')).length + 1
      s!"{text} (line {line}, column {column})"
    else text
  | .unevenBehind => "look-behind requires fixed-width pattern"
  | .conflictingTypes => "ASCII and UNICODE flags are incompatible"
  | .hugeRepeat => "the repetition number is too large"
  | .oversizedRepeat digits => Decimal.oversizedMessage digits

/-- Whether the fault is one of the pattern as an expression, and not of a number or flag in it. -/
def Fault.isMalformed : Fault → Bool
  | .at .. | .unevenBehind => true
  | .conflictingTypes | .hugeRepeat | .oversizedRepeat _ => false

end WorkloadDrift.Regex
