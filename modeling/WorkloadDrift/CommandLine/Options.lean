import WorkloadDrift.Text.Similarity

/-!
# Options

Options among the arguments of a command. A long name has two dashes, a short
one has one dash and one letter. A value follows as the next argument, after a
long name also behind an equals sign, after a short one also without a gap.
-/
namespace WorkloadDrift.CommandLine

/-- The options of a command in the order in which it declares them. -/
structure OptionTable (α : Type) where
  all : List α
  long : α → String
  short? : α → Option Char
  takesValue : α → Bool

inductive OptionError where
  | unknown (name : String) (close : List String)
  | valueMissing (name : String)
  | valueUnexpected (name : String)
  deriving DecidableEq, Repr

/-- The options as given, flags with an empty value, and the other arguments. -/
structure Arguments (α : Type) where
  given : List (α × String)
  rest : List String

namespace Arguments

variable {α : Type}

def prepend (given : List (α × String)) (a : Arguments α) : Arguments α :=
  { a with given := given ++ a.given }

variable [DecidableEq α]

def values (a : Arguments α) (o : α) : List String :=
  (a.given.filter fun g => g.1 = o).map (·.2)

/-- The last value counts. -/
def value? (a : Arguments α) (o : α) : Option String := (a.values o).getLast?

def has (a : Arguments α) (o : α) : Bool := (a.value? o).isSome

end Arguments

/-- What one argument gives: options with their values, and then perhaps an option that takes the
next argument, under the name by which it was called. -/
structure Step (α : Type) where
  given : List (α × String)
  pending : Option (α × String)

namespace OptionTable

variable {α : Type} (t : OptionTable α)

def ofLong? (name : String) : Option α := t.all.find? fun o => t.long o = name

def ofShort? (c : Char) : Option α := t.all.find? fun o => t.short? o = some c

def shortName (c : Char) : String := String.ofList ['-', c]

/-- All names of an option, the long one first. -/
def names (o : α) : List String := t.long o :: ((t.short? o).map shortName).toList

/-- Short options that share a dash; the first one with a value takes the rest. -/
def readShort : List Char → Except OptionError (Step α)
  | [] => .ok ⟨[], none⟩
  | c :: cs =>
    match t.ofShort? c with
    | none => .error (.unknown (shortName c) [])
    | some o =>
      if t.takesValue o then
        if cs.isEmpty then .ok ⟨[], some (o, shortName c)⟩
        else .ok ⟨[(o, String.ofList cs)], none⟩
      else (readShort cs).map fun s => { s with given := (o, "") :: s.given }

/-- The name before the first equals sign and the value after it. -/
def splitValue (arg : List Char) : String × Option String :=
  let name := String.ofList (arg.takeWhile (· ≠ '='))
  match arg.dropWhile (· ≠ '=') with
  | _ :: value => (name, some (String.ofList value))
  | [] => (name, none)

def readLong (o : α) (name : String) : Option String → Except OptionError (Step α)
  | none => .ok (if t.takesValue o then ⟨[], some (o, name)⟩ else ⟨[(o, "")], none⟩)
  | some value =>
    if t.takesValue o then .ok ⟨[(o, value)], none⟩ else .error (.valueUnexpected name)

/-- Reads an argument that starts with a dash. -/
def readOption (arg : List Char) : Except OptionError (Step α) :=
  let (name, value?) := splitValue arg
  match t.ofLong? name with
  | some o => t.readLong o name value?
  | none =>
    match arg with
    | '-' :: '-' :: _ => .error (.unknown name (Text.closest name (t.all.map t.long)))
    | _ => t.readShort arg.tail

/-- A lone dash is not an option. -/
def isOption : List Char → Bool
  | '-' :: _ :: _ => true
  | _ => false

/-- Two dashes end the options, and so does any other argument that is none unless options may come
after it. -/
def read (interspersed : Bool) : List String → Except OptionError (Arguments α)
  | [] => .ok ⟨[], []⟩
  | arg :: args =>
    if arg = "--" then .ok ⟨[], args⟩
    else if isOption arg.toList then
      match t.readOption arg.toList with
      | .error e => .error e
      | .ok ⟨given, none⟩ => (read interspersed args).map (·.prepend given)
      | .ok ⟨given, some (o, name)⟩ =>
        match args with
        | [] => .error (.valueMissing name)
        | value :: args => (read interspersed args).map (·.prepend (given ++ [(o, value)]))
    else if interspersed then
      (read interspersed args).map fun a => { a with rest := arg :: a.rest }
    else .ok ⟨[], arg :: args⟩

end OptionTable
end WorkloadDrift.CommandLine
