/-!
# Regular expressions

The tree of a pattern. The flags in force at a place are written into its parts,
so that a part can be matched without knowing where it stands.
-/
namespace WorkloadDrift.Regex

inductive CharKind where
  | digit | blank | word
  deriving DecidableEq, Repr

/-- A member of a bracketed set. Characters are code points. -/
inductive Member where
  | one (code : Nat)
  | range (low high : Nat)
  | kind (k : CharKind) (negated ascii : Bool)
  deriving DecidableEq, Repr

/-- A condition on a place. `finalEnd` is the end or the place before a last line feed. -/
inductive Anchor where
  | textStart
  | lineStart
  | textEnd
  | lineEnd
  | finalEnd
  | wordEdge (negated ascii : Bool)
  deriving DecidableEq, Repr

/-- A `greedy` repetition tries one more round first, a `lazy` one tries to go on first, and a
`possessive` one never takes a round back. -/
inductive Greed where
  | greedy | lazy | possessive
  deriving DecidableEq, Repr

inductive Expr where
  | empty
  | fail
  | one (code : Nat) (foldCase : Bool)
  | any (newlines : Bool)
  | set (negated foldCase : Bool) (members : List Member)
  | anchor (a : Anchor)
  | seq (first second : Expr)
  | alt (first second : Expr)
  | repeated (greed : Greed) (min : Nat) (max : Option Nat) (body : Expr)
  | group (index : Option Nat) (body : Expr)
  | atomic (body : Expr)
  | sameAs (index : Nat) (foldCase : Bool)
  | ahead (negated : Bool) (body : Expr)
  | behind (negated : Bool) (width : Nat) (body : Expr)
  | ifGroup (index : Nat) (yes no : Expr)
  deriving Inhabited, Repr

namespace Expr

def ofSequence (parts : List Expr) : Expr :=
  match parts with
  | [] => .empty
  | [e] => e
  | e :: rest => .seq e (ofSequence rest)

def ofBranches (branches : List Expr) : Expr :=
  match branches with
  | [] => .empty
  | [e] => e
  | e :: rest => .alt e (ofBranches rest)

end Expr

/-- The fewest and the most characters of a match; no most if it is unbounded. -/
structure Width where
  least : Nat
  most : Option Nat
  deriving DecidableEq, Repr

namespace Width

def exactly (n : Nat) : Width := ⟨n, some n⟩

def add (a b : Width) : Width :=
  ⟨a.least + b.least, do return (← a.most) + (← b.most)⟩

def either (a b : Width) : Width :=
  ⟨min a.least b.least, do return max (← a.most) (← b.most)⟩

def repeated (min : Nat) (max : Option Nat) (w : Width) : Width :=
  ⟨min * w.least, if w.most = some 0 then some 0 else do return (← max) * (← w.most)⟩

end Width

/-- The width of an expression, given those of the groups that it may refer to. -/
def Expr.width (groups : Nat → Width) : Expr → Width
  | .one .. | .any _ | .set .. => .exactly 1
  | .seq a b => (a.width groups).add (b.width groups)
  | .alt a b => (a.width groups).either (b.width groups)
  | .repeated _ min max body => (body.width groups).repeated min max
  | .group _ body => body.width groups
  | .atomic body => body.width groups
  | .sameAs index _ => groups index
  | .ifGroup _ yes no => (yes.width groups).either (no.width groups)
  | .empty | .fail | .anchor _ | .ahead .. | .behind .. => .exactly 0

end WorkloadDrift.Regex
