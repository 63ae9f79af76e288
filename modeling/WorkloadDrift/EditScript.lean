/-!
# Shortest edit scripts

The scripts that turn one sequence into another by keeping, inserting and
removing single elements. The search follows the furthest-reaching paths of
each edit count, one per diagonal, so the first path to the far corner is a
shortest script.
-/
namespace WorkloadDrift

inductive EditKind where
  | keep | insert | remove
  deriving DecidableEq, Repr

def EditKind.all : List EditKind := [.keep, .insert, .remove]

def EditKind.name : EditKind → String
  | .keep => "Keep"
  | .insert => "Insert"
  | .remove => "Remove"

structure Edit (α : Type) where
  kind : EditKind
  value : α
  deriving DecidableEq, Repr

namespace EditScript

variable {α : Type}

/-- A path in the edit grid: how many elements of the first sequence it has consumed, and its
edits, latest first. -/
structure Path (α : Type) where
  x : Nat
  edits : List (Edit α)

def Path.start : Path α := ⟨0, []⟩

/-- Whether diagonal `i` of round `d` is reached by an insertion. The round has the diagonals
`-d, -d + 2, …, d`, numbered from zero, and diagonal `i` has the neighbours `i - 1` and `i` of the
round before. -/
def goesDown (last : List (Path α)) (d i : Nat) : Bool :=
  i = 0 || (i ≠ d && (last.getD (i - 1) .start).x < (last.getD i .start).x)

/-- The position in the second sequence on diagonal `i` of round `d`, for a path at `x`. -/
def column (d i x : Nat) : Nat := x + d - 2 * i

/-- One step off the neighbouring path. The two sides may run out, and a step beyond a side is
taken without an edit. -/
def advance (a b : Array α) (last : List (Path α)) (d i : Nat) : Path α :=
  let down := goesDown last d i
  let origin := if down then last.getD i .start else last.getD (i - 1) .start
  let x := if down then origin.x else origin.x + 1
  let inserted := if down ∧ 1 ≤ column d i x then b[column d i x - 1]? else none
  let removed := if 1 ≤ x then a[x - 1]? else none
  match inserted, removed with
  | some v, _ => ⟨x, ⟨.insert, v⟩ :: origin.edits⟩
  | none, some v => ⟨x, ⟨.remove, v⟩ :: origin.edits⟩
  | none, none => ⟨x, origin.edits⟩

/-- Keeps elements for as long as both sequences agree; `budget` bounds how many are left. -/
def follow [DecidableEq α] (a b : Array α) : (budget y : Nat) → Path α → Path α
  | 0, _, p => p
  | budget + 1, y, p =>
    match a[p.x]?, b[y]? with
    | some u, some v =>
      if u = v then follow a b budget (y + 1) ⟨p.x + 1, ⟨.keep, u⟩ :: p.edits⟩ else p
    | _, _ => p

/-- The furthest-reaching path on diagonal `i` of round `d`. -/
def reach [DecidableEq α] (a b : Array α) (last : List (Path α)) (d i : Nat) : Path α :=
  let p := advance a b last d i
  follow a b (a.size - p.x) (column d i p.x) p

/-- Whether a path on diagonal `i` of round `d` has consumed both sequences. -/
def isComplete (a b : Array α) (d i : Nat) (p : Path α) : Bool :=
  a.size ≤ p.x && b.size ≤ column d i p.x

/-- The frontier before round zero: one path at the start, above the main diagonal. -/
def initialFrontier : List (Path α) := [.start]

def round [DecidableEq α] (a b : Array α) (last : List (Path α)) (d : Nat) : List (Path α) :=
  (List.range (d + 1)).map (reach a b last d)

/-- The edits, latest first, of the first path of a round that consumes both sequences. -/
def finished? (a b : Array α) (d : Nat) (frontier : List (Path α)) : Option (List (Edit α)) :=
  (frontier.zipIdx.find? fun (p, i) => isComplete a b d i p).map (·.1.edits)

def search [DecidableEq α] (a b : Array α) : (rounds d : Nat) → List (Path α) → List (Edit α)
  | 0, _, _ => []
  | rounds + 1, d, last =>
    let frontier := round a b last d
    match finished? a b d frontier with
    | some edits => edits.reverse
    | none => search a b rounds (d + 1) frontier

end EditScript

/-- A shortest script from `a` to `b`. Of equally far paths the one by removal is taken. -/
def editScript {α : Type} [DecidableEq α] (a b : List α) : List (Edit α) :=
  EditScript.search a.toArray b.toArray (a.length + b.length + 1) 0 EditScript.initialFrontier

end WorkloadDrift
