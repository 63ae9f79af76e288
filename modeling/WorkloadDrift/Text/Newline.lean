/-!
# Line ends

Every way to end a line becomes a line feed.
-/
namespace WorkloadDrift.Text

def unifyNewlines : List Char → List Char
  | [] => []
  | '\r' :: '\n' :: cs => '\n' :: unifyNewlines cs
  | '\r' :: cs => '\n' :: unifyNewlines cs
  | c :: cs => c :: unifyNewlines cs

theorem unifyNewlines_of_not_mem {cs : List Char} (h : '\r' ∉ cs) : unifyNewlines cs = cs := by
  induction cs with
  | nil => rfl
  | cons c cs ih =>
    simp only [List.mem_cons, not_or] at h
    rw [unifyNewlines.eq_4 c cs (fun _ hc _ => h.1 hc.symm) (fun hc => h.1 hc.symm), ih h.2]

end WorkloadDrift.Text
