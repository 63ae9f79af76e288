/-!
# Similar texts

Two texts have in common their longest common run and, on each side of it, what
the parts there have in common. They are close if this is three fifths of their
mean length.
-/
namespace WorkloadDrift.Text

def commonStart : List Char → List Char → Nat
  | a :: as, b :: bs => if a = b then commonStart as bs + 1 else 0
  | _, _ => 0

/-- A run of `size` characters that stands in two texts. -/
structure CommonRun where
  first : Nat
  second : Nat
  size : Nat
  deriving DecidableEq, Repr

/-- The common runs that cannot go on, ordered by where they start in the first text and then in the
second. -/
def commonRuns (a b : List Char) : List CommonRun :=
  (List.range a.length).flatMap fun i =>
    (List.range b.length).map fun j => ⟨i, j, commonStart (a.drop i) (b.drop j)⟩

/-- The first of the longest. -/
def longestRun (a b : List Char) : CommonRun :=
  (commonRuns a b).foldl (fun best r => if best.size < r.size then r else best) ⟨0, 0, 0⟩

/-- How many characters two texts have in common. -/
def commonSize (a b : List Char) : Nat :=
  match longestRun a b with
  | ⟨i, j, n⟩ =>
    if i + n ≤ a.length ∧ 0 < n then
      commonSize (a.take i) (b.take j) + n + commonSize (a.drop (i + n)) (b.drop (j + n))
    else 0
termination_by a.length
decreasing_by all_goals simp only [List.length_take, List.length_drop]; omega

/-- How close a candidate is to a text: the common characters for each of all characters. -/
structure Closeness where
  candidate : String
  common : Nat
  total : Nat
  deriving DecidableEq, Repr

def Closeness.of (text candidate : String) : Closeness where
  candidate
  common := commonSize candidate.toList text.toList
  total := candidate.length + text.length

def Closeness.isEnough (c : Closeness) : Bool := 3 * c.total ≤ 10 * c.common

/-- The closer one first; of two equally close ones the later in order. -/
def Closeness.precedes (c d : Closeness) : Bool :=
  d.common * c.total < c.common * d.total ||
    (d.common * c.total = c.common * d.total && d.candidate ≤ c.candidate)

/-- The closest candidates, three at most. -/
def closest (text : String) (candidates : List String) : List String :=
  let close := (candidates.map (Closeness.of text)).filter (·.isEnough)
  ((close.mergeSort Closeness.precedes).take 3).map (·.candidate)

end WorkloadDrift.Text
