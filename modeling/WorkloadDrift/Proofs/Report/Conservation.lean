import WorkloadDrift.Proofs.Comparison.Balance
import WorkloadDrift.Proofs.Report.Leaves

/-!
# Reports conserve values

Cancellation takes a value out of the balance on both sides at once. What a
report still shows of a value is then what the latest snapshot has more of it
than the baseline.
-/
namespace WorkloadDrift

variable {digest : Digest} {latest baseline : Workload}

/-- Lists with each value equally often have the same values; the empty one does not count. -/
theorem perm_filter_ne_empty {l l' : List String} (h : ∀ v, v ≠ "" → l.count v = l'.count v) :
    (l.filter (· ≠ "")).Perm (l'.filter (· ≠ "")) := by
  apply List.perm_iff_count.2
  intro v
  by_cases hv : v = ""
  · subst hv
    rw [List.count_eq_zero_of_not_mem (by simp), List.count_eq_zero_of_not_mem (by simp)]
  · rw [List.count_filter (by simpa using hv), List.count_filter (by simpa using hv), h v hv]

namespace Report

theorem active_balance {leaves : List Node} (distinct : (leaves.map (·.hash)).Nodup) (v : String) :
    let active := leaves.filter fun n => n.hash ∉ Cancellation.matched leaves
    active.countP (v ∈ ·.change.insert) + leaves.countP (v ∈ ·.change.remove) =
      active.countP (v ∈ ·.change.remove) + leaves.countP (v ∈ ·.change.insert) := by
  intro active
  have hsplit (p : Node → Bool) :
      leaves.countP p = (Cancellation.canceling leaves).countP p + active.countP p := by
    rw [List.countP_eq_countP_filter_add leaves p fun n => n.hash ∈ Cancellation.matched leaves]
    simp [active, Cancellation.canceling]
  rw [hsplit, hsplit, Cancellation.countP_canceling distinct]
  omega

end Report

/-- Without criteria, the active changes bring as much more of a value than they take of it as the
shared resources have more of it in the latest snapshot than in the baseline. Without drift both
sides have the same values. -/
theorem report_conserves (hex : digest.Hexadecimal) (hlatest : latest.PlainNames)
    (hbaseline : baseline.PlainNames)
    (aligned : ∀ pair ∈ latest.sharedResources baseline, pair.1.Aligned pair.2)
    (separates : digest.Separates (latest.digested digest baseline)) :
    let r := Report.build digest latest baseline none
    let shared := latest.sharedResources baseline
    let latestValues := shared.flatMap fun pair => pair.1.comparedValues
    let baselineValues := shared.flatMap fun pair => pair.2.comparedValues
    (∀ v, v ≠ "" →
      (r.activeLeaves.countP (v ∈ ·.change.insert) : Int) - r.activeLeaves.countP (v ∈ ·.change.remove) =
        (latestValues.count v : Int) - baselineValues.count v) ∧
    (r.hasDrift = false → (latestValues.filter (· ≠ "")).Perm (baselineValues.filter (· ≠ ""))) := by
  intro r shared latestValues baselineValues
  obtain ⟨distinct, hfresh, hshows⟩ :=
    found_spec hex (Workload.nodup_texts hex hlatest hbaseline) separates
  have hbalance (v : String) (hv : v ≠ "") :
      r.activeLeaves.countP (v ∈ ·.change.insert) + baselineValues.count v =
        r.activeLeaves.countP (v ∈ ·.change.remove) + latestValues.count v := by
    have hcancel := Report.active_balance distinct v
    have hvalues : Balanced v (latest.edits baseline) latestValues baselineValues :=
      Workload.balanced aligned hv
    rw [Report.activeLeaves_build hfresh]
    simp only [Balanced] at hvalues
    rw [hshows.countP_insert hv, hshows.countP_remove hv] at hcancel
    omega
  constructor
  · intro v hv
    have hv := hbalance v hv
    omega
  · intro hdrift
    have hnone : r.activeLeaves = [] := Report.hasDrift_build.1 hdrift
    apply perm_filter_ne_empty
    intro v hv
    have hcount := hbalance v hv
    rw [hnone] at hcount
    simpa using hcount.symm

/-- Two accesses change places and a third one goes: of the values that moved nothing is left in the
balance, of the third one the loss. -/
theorem report_conserves_running :
    let latest := Workload.running
      (.accessing [some (.copying "x" "a"), none, some (.copying "y" "b")])
    let baseline := Workload.running
      (.accessing [some (.copying "y" "b"), none, some (.copying "x" "a"), some (.copying "z" "")])
    let active := (Report.build .spelled latest baseline none).activeLeaves
    (active.countP ("x" ∈ ·.change.insert) : Int) - active.countP ("x" ∈ ·.change.remove) = 0 ∧
      (active.countP ("z" ∈ ·.change.insert) : Int) - active.countP ("z" ∈ ·.change.remove) = -1 ∧
      (Report.build .spelled latest baseline none).hasDrift = true := by
  intro latest baseline active
  obtain ⟨hbalance, hdrift⟩ := @report_conserves .spelled latest baseline
    Digest.hexadecimal_spelled (by decide) (by decide) (by decide) (Digest.separates_spelled _)
  refine ⟨(hbalance "x" (by decide)).trans (by decide), (hbalance "z" (by decide)).trans (by decide), ?_⟩
  by_contra h
  exact absurd (hdrift (by simpa using h)) (by decide)

end WorkloadDrift
