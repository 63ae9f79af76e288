import WorkloadDrift.Proofs.Comparison.Origin
import WorkloadDrift.Proofs.Criteria
import WorkloadDrift.Proofs.Report.Leaves

/-!
# Options of a report

Criteria take the leaves that they reject from what is active without them. What they
reject comes down to which values each option has.
-/
namespace WorkloadDrift

namespace Report

variable {digest : Digest} {latest baseline : Workload}

theorem active_found : ∀ n ∈ found digest latest baseline, n.change.canceled = false := fun n hn =>
  (found_difference digest latest baseline n (mem_of_mem_visit (List.mem_of_mem_filter hn))).active

/-- The leaves are left over that no pass is against. -/
theorem activeLeaves_eq (criteria : Option Criteria) :
    (build digest latest baseline criteria).activeLeaves =
      (found digest latest baseline).filter fun n =>
        !(passes (latest.contentHash digest) criteria).any fun p =>
          n.hash ∈ p.targets (difference digest latest baseline) := by
  rw [activeLeaves, leaves, graph_build, rootHash_build, Pass.runAll_eq]
  exact ChangeGraph.active_leaves_cancel _ active_found

/-- Criteria take from the active leaves those that they reject. -/
theorem activeLeaves_filtering (c : Criteria) :
    (build digest latest baseline (some c)).activeLeaves =
      (build digest latest baseline none).activeLeaves.filter fun n => !c.rejects n := by
  rw [activeLeaves_eq, activeLeaves_eq, List.filter_filter]
  apply List.filter_congr
  intro n hn
  have htargets := Pass.hash_mem_targets_filtering (difference digest latest baseline) (c := c) hn
  simp [passes, htargets, Bool.and_comm]

/-- Tighter criteria leave nothing over that others do not. -/
theorem activeLeaves_sublist {c c' : Criteria} (h : c.TightensTo c') :
    (build digest latest baseline (some c')).activeLeaves.Sublist
      (build digest latest baseline (some c)).activeLeaves := by
  rw [activeLeaves_filtering, activeLeaves_filtering]
  apply List.monotone_filter_right
  intro n hn
  simp only [Bool.not_eq_true', ← Bool.not_eq_true] at hn ⊢
  exact mt h.rejects hn

end Report

/-- However expressions are looked for, criteria take from the active leaves those that they reject,
and the values of an option act as a set. More values to ignore activate no leaf, and more values to
admit cancel none if the option had an effect before. Blank values change nothing, even in an option
that has no other. -/
theorem activeLeaves_options (digest : Digest) (latest baseline : Workload)
    (search : String → String → Bool) :
    let active (c : Criteria) : List Node :=
      (Report.build digest latest baseline (some (c.searching search))).activeLeaves
    (∀ c, active c = (Report.build digest latest baseline none).activeLeaves.filter fun n =>
      !(c.searching search).rejects n) ∧
    (∀ v v' : CriteriaValues, v.Within v' → v'.Within v → ∀ c, Criteria.ofValues v = .ok c →
      ∃ c', Criteria.ofValues v' = .ok c' ∧ active c' = active c) ∧
    (∀ (v : CriteriaValues) (ignoredCommands ignoredPaths : List String) (c' : Criteria),
      Criteria.ofValues (v ++ { ignoredCommands, ignoredPaths }) = .ok c' →
        ∃ c, Criteria.ofValues v = .ok c ∧ (active c').Sublist (active c)) ∧
    (∀ (v : CriteriaValues) (workloads sources destinations : List String) (c' : Criteria),
      Criteria.ofValues (v ++ { workloads, sources, destinations }) = .ok c' →
        ∃ c, Criteria.ofValues v = .ok c ∧
          ((workloads ≠ [] → c.workloads.isConfigured) → (sources ≠ [] → c.sources.isConfigured) →
            (destinations ≠ [] → c.destinations.isConfigured) → (active c).Sublist (active c'))) ∧
    ∀ v blanks : CriteriaValues, blanks.Blank →
      Criteria.ofValues (v ++ blanks) = Criteria.ofValues v := by
  intro active
  refine ⟨fun c => Report.activeLeaves_filtering _, fun v v' hwithin hwithin' c h => ?_,
    fun v commands paths c' h' => ?_, fun v workloads sources destinations c' h' => ?_,
    fun v blanks => Criteria.ofValues_append_blank v⟩
  · obtain ⟨c', h'⟩ := Criteria.exists_ofValues_of_within h hwithin'
    have htightens : (c.searching search).TightensTo (c'.searching search) :=
      Criteria.tightensTo_of_within h h' hwithin hwithin'.workloads hwithin'.sources
        hwithin'.destinations
    have hloosens : (c'.searching search).TightensTo (c.searching search) :=
      Criteria.tightensTo_of_within h' h hwithin' hwithin.workloads hwithin.sources
        hwithin.destinations
    exact ⟨c', h', (Report.activeLeaves_sublist htightens).antisymm
      (Report.activeLeaves_sublist hloosens)⟩
  · have hwithin := v.within_append { ignoredCommands := commands, ignoredPaths := paths }
    obtain ⟨c, h⟩ := Criteria.exists_ofValues_of_within h' hwithin
    exact ⟨c, h, Report.activeLeaves_sublist (Criteria.tightensTo_of_within h h' hwithin
      (by simp [CriteriaValues.append_eq]) (by simp [CriteriaValues.append_eq])
      (by simp [CriteriaValues.append_eq]))⟩
  · obtain ⟨c, h⟩ := Criteria.exists_ofValues_of_within h' (v.within_append _)
    refine ⟨c, h, fun hworkloads hsources hdestinations => ?_⟩
    exact Report.activeLeaves_sublist
      (Criteria.tightensTo_of_append h h' hworkloads hsources hdestinations)

/-- What a report says of a deployment that accesses `x` in place of `y`. -/
def Report.accessing (c : Criteria) : Report :=
  build .spelled (.running (.accessing [some (.copying "x" "")]))
    (.running (.accessing [some (.copying "y" "")])) (some c)

theorem Report.length_activeLeaves_accessing (c : Criteria) :
    (accessing c).activeLeaves.length = if c.rejects .accessing then 0 else 1 := by
  obtain ⟨n, hfound, hfinding, hmatched⟩ := found_accessing
  have hrejects : c.rejects n = c.rejects .accessing := by
    have hpath : n.path = Node.accessing.path := congrArg Finding.path hfinding
    have hfile : n.file = Node.accessing.file := congrArg Finding.file hfinding
    have hnetwork : n.network = Node.accessing.network := congrArg Finding.network hfinding
    rw [Criteria.rejects, Criteria.rejects, hpath, hfile, hnetwork]
  rw [accessing, activeLeaves_filtering, activeLeaves_build active_found, hfound, hmatched]
  cases h : c.rejects .accessing <;> simp [hrejects, h]

/-- An expression admits the leaf, once and again, and no other value to admit takes it out. A path
to ignore does, and a blank one changes nothing. -/
theorem activeLeaves_options_accessing :
    let active (c : Criteria) : List Node := (Report.accessing c).activeLeaves
    let v : CriteriaValues := { workloads := ["r:^deployment/", "job/j"] }
    ∃ c, Criteria.ofValues v = .ok c ∧ (active c).length = 1 ∧
      (∃ c', Criteria.ofValues { workloads := ["job/j", "r:^deployment/", "job/j"] } = .ok c' ∧
        active c' = active c) ∧
      (∃ c', Criteria.ofValues (v ++ { ignoredPaths := [" x"] }) = .ok c' ∧
        (active c').length = 0 ∧ (active c').Sublist (active c)) ∧
      (∃ c', Criteria.ofValues (v ++ { workloads := ["job/k"] }) = .ok c' ∧
        (active c').length = 1 ∧ (active c).Sublist (active c')) ∧
      Criteria.ofValues (v ++ { sources := ["  "] }) = Criteria.ofValues v := by
  intro active v
  have hcount (v : CriteriaValues) (k : Nat)
      (hk : (Criteria.ofValues v).toOption.map (fun c => if c.rejects .accessing then 0 else 1) =
        some k) : ∃ c, Criteria.ofValues v = .ok c ∧ (active c).length = k := by
    cases h : Criteria.ofValues v with
    | error e => simp [h, Except.toOption] at hk
    | ok c =>
      refine ⟨c, rfl, (Report.length_activeLeaves_accessing c).trans ?_⟩
      simpa [h, Except.toOption] using hk
  obtain ⟨-, hsame, hignored, hadmitted, hblank⟩ := activeLeaves_options .spelled
    (.running (.accessing [some (.copying "x" "")])) (.running (.accessing [some (.copying "y" "")]))
    PatternSet.finds
  obtain ⟨c, hc, hactive⟩ := hcount v 1 (by decide +kernel)
  refine ⟨c, hc, hactive, ?_, ?_, ?_, ?_⟩
  · obtain ⟨c', hc', hequal⟩ := hsame v { workloads := ["job/j", "r:^deployment/", "job/j"] }
      ⟨by simp [v], by simp [v], by simp [v], by simp [v], by simp [v]⟩
      ⟨by simp [v], by simp [v], by simp [v], by simp [v], by simp [v]⟩ c hc
    simp only [Criteria.searching_finds hc, Criteria.searching_finds hc'] at hequal
    exact ⟨c', hc', hequal⟩
  · obtain ⟨c', hc', hnone⟩ := hcount (v ++ { ignoredPaths := [" x"] }) 0 (by decide +kernel)
    obtain ⟨d, hd, hsublist⟩ := hignored v [] [" x"] c' hc'
    obtain rfl := Except.ok.inj (hd.symm.trans hc)
    simp only [Criteria.searching_finds hc, Criteria.searching_finds hc'] at hsublist
    exact ⟨c', hc', hnone, hsublist⟩
  · obtain ⟨c', hc', hkept⟩ := hcount (v ++ { workloads := ["job/k"] }) 1 (by decide +kernel)
    obtain ⟨d, hd, hsublist⟩ := hadmitted v ["job/k"] [] [] c' hc'
    obtain rfl := Except.ok.inj (hd.symm.trans hc)
    have hconfigured : d.workloads.isConfigured :=
      (PatternSet.isConfigured_ofValues (Criteria.ofValues_eq_ok_iff.1 hd).1).2
        ⟨"job/j", by simp [v], _, rfl, by decide⟩
    have hmore := hsublist (fun _ => hconfigured) (by simp) (by simp)
    simp only [Criteria.searching_finds hc, Criteria.searching_finds hc'] at hmore
    exact ⟨c', hc', hkept, hmore⟩
  · exact hblank v _
      ⟨by simp, List.forall_mem_singleton.2 (by decide), by simp, by simp, by simp⟩

end WorkloadDrift
