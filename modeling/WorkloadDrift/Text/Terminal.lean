/-!
# Terminal controls

A control sequence of a terminal is an escape, an opening bracket, parameters
and a letter. Text that does not go to a terminal is written without them.
-/
namespace WorkloadDrift.Text

def isParameter (c : Char) : Bool := c.isDigit || c = ';' || c = '?'

/-- The text after the parameters and the letter of a control sequence. -/
def afterControl? (cs : List Char) : Option (List Char) :=
  match cs.dropWhile isParameter with
  | c :: rest => if c.isAlpha then some rest else none
  | [] => none

theorem length_afterControl {cs rest : List Char} (h : afterControl? cs = some rest) :
    rest.length < cs.length := by
  have shorter := (List.dropWhile_sublist isParameter (l := cs)).length_le
  unfold afterControl? at h
  split at h
  · next heq =>
    rw [heq] at shorter
    split at h
    · cases h; exact shorter
    · cases h
  · cases h

def withoutControls (cs : List Char) : List Char :=
  match cs with
  | [] => []
  | '\x1b' :: '[' :: rest =>
    match h : afterControl? rest with
    | some after =>
      have := length_afterControl h
      withoutControls after
    | none => '\x1b' :: withoutControls ('[' :: rest)
  | c :: rest => c :: withoutControls rest
termination_by cs.length
decreasing_by all_goals simp only [List.length_cons]; omega

end WorkloadDrift.Text
