import Mathlib.Data.List.Find
import Mathlib.Data.List.Forall2
import WorkloadDrift.Proofs.Comparison.Mirror
import WorkloadDrift.Proofs.Report.Counts

/-!
# The report the other way round

With the snapshots exchanged a report has the same leaves, each with what it brings
and what it takes exchanged. A value then comes where it went, so the partners of a
leaf are the same, and the same leaves cancel.
-/
namespace WorkloadDrift
namespace Cancellation

/-- Pairs of leaves of which each brings what the other takes. -/
def Exchanged (pairs : List (Node × Node)) : Prop :=
  ∀ p ∈ pairs, p.2.change.insert = p.1.change.remove ∧ p.2.change.remove = p.1.change.insert

variable {pairs : List (Node × Node)}

theorem Exchanged.swap (h : Exchanged pairs) : Exchanged (pairs.map Prod.swap) := by
  intro p hp
  obtain ⟨q, hq, rfl⟩ := List.mem_map.1 hp
  exact ⟨(h q hq).2.symm, (h q hq).1.symm⟩

/-- Where the values of the halves agree, the last halves with a value are those of one pair. -/
theorem exists_last_pair {values values' : Node → List String}
    (hsame : ∀ p ∈ pairs, values' p.2 = values p.1) {v : String} {n : Node}
    (hlast : (pairs.map (·.1)).reverse.find? (fun n => v ∈ values n) = some n) :
    ∃ p ∈ pairs, p.1 = n ∧
      (pairs.map (·.2)).reverse.find? (fun n => v ∈ values' n) = some p.2 := by
  rw [← List.map_reverse, List.find?_map] at hlast
  obtain ⟨p, hp, rfl⟩ := Option.map_eq_some_iff.1 hlast
  have hagree : ∀ q ∈ pairs.reverse, decide (v ∈ values' q.2) = decide (v ∈ values q.1) :=
    fun q hq => by rw [hsame q (List.mem_reverse.1 hq)]
  refine ⟨p, List.mem_reverse.1 (List.mem_of_find?_eq_some hp), rfl, ?_⟩
  rw [← List.map_reverse, List.find?_map, Option.map_eq_some_iff]
  exact ⟨p, (List.find?_congr hagree).trans hp, rfl⟩

/-- Where a value goes last on one side it comes last on the other. -/
theorem Exchanged.lastInserting?_eq (h : Exchanged pairs) {v : String} {n : Node}
    (hlast : lastRemoving? (pairs.map (·.1)) v = some n) :
    ∃ p ∈ pairs, p.1 = n ∧ lastInserting? (pairs.map (·.2)) v = some p.2 :=
  exists_last_pair (fun p hp => (h p hp).1) hlast

theorem Exchanged.lastRemoving?_eq (h : Exchanged pairs) {v : String} {n : Node}
    (hlast : lastInserting? (pairs.map (·.1)) v = some n) :
    ∃ p ∈ pairs, p.1 = n ∧ lastRemoving? (pairs.map (·.2)) v = some p.2 :=
  exists_last_pair (fun p hp => (h p hp).2) hlast

/-- The other halves of a closed class are closed. -/
theorem Closed.exchanged {S : Node → Prop} (hS : Closed (pairs.map (·.1)) S) (h : Exchanged pairs)
    (distinct : ((pairs.map (·.1)).map (·.hash)).Nodup) :
    Closed (pairs.map (·.2)) fun n => ∃ p ∈ pairs, p.2 = n ∧ S p.1 := by
  have heq {p q : Node × Node} (hp : p ∈ pairs) (hq : q ∈ pairs) (hpq : q.1 = p.1) : q = p := by
    rw [List.map_map] at distinct
    exact List.inj_on_of_nodup_map distinct hq hp (congrArg Node.hash hpq)
  constructor
  · rintro _ ⟨p, hp, rfl, -⟩
    exact List.mem_map_of_mem hp
  · rintro _ ⟨p, hp, rfl, hpS⟩
    rw [(h p hp).1, (h p hp).2, Bool.and_comm]
    exact hS.edited p.1 hpS
  · rintro _ ⟨p, hp, rfl, hpS⟩ v hv
    rw [(h p hp).1] at hv
    obtain ⟨hown, m, hm, hother⟩ := hS.remove p.1 hpS v hv
    obtain ⟨q, hq, hqp, hlast⟩ := h.lastInserting?_eq hown
    obtain rfl := heq hp hq hqp
    obtain ⟨r, hr, rfl, hlast'⟩ := h.lastRemoving?_eq hother
    exact ⟨hlast, r.2, ⟨r, hr, rfl, hm⟩, hlast'⟩
  · rintro _ ⟨p, hp, rfl, hpS⟩ v hv
    rw [(h p hp).2] at hv
    obtain ⟨hown, m, hm, hother⟩ := hS.insert p.1 hpS v hv
    obtain ⟨q, hq, hqp, hlast⟩ := h.lastRemoving?_eq hown
    obtain rfl := heq hp hq hqp
    obtain ⟨r, hr, rfl, hlast'⟩ := h.lastInserting?_eq hother
    exact ⟨hlast, r.2, ⟨r, hr, rfl, hm⟩, hlast'⟩

theorem Exchanged.mem_canceling (h : Exchanged pairs)
    (distinct : ((pairs.map (·.1)).map (·.hash)).Nodup) {p : Node × Node} (hp : p ∈ pairs)
    (hcancels : p.1 ∈ canceling (pairs.map (·.1))) : p.2 ∈ canceling (pairs.map (·.2)) :=
  ((closed_canceling distinct).exchanged h distinct).mem_canceling ⟨p, hp, rfl, hcancels⟩

/-- Of two leaves that face each other either both cancel or none. -/
theorem Exchanged.mem_matched_iff (h : Exchanged pairs)
    (distinct : ((pairs.map (·.1)).map (·.hash)).Nodup)
    (distinct' : ((pairs.map (·.2)).map (·.hash)).Nodup) {p : Node × Node} (hp : p ∈ pairs) :
    p.1.hash ∈ matched (pairs.map (·.1)) ↔ p.2.hash ∈ matched (pairs.map (·.2)) := by
  have hfst : (pairs.map Prod.swap).map (·.1) = pairs.map (·.2) := by rw [List.map_map]; rfl
  have hsnd : (pairs.map Prod.swap).map (·.2) = pairs.map (·.1) := by rw [List.map_map]; rfl
  -- Back it is the same step, for the pairs turned round.
  have hback := h.swap.mem_canceling (hfst ▸ distinct') (List.mem_map_of_mem hp)
  rw [hfst, hsnd] at hback
  constructor
  · intro hmatched
    have hcancels := h.mem_canceling distinct hp
      (Cancellation.mem_canceling.2 ⟨List.mem_map_of_mem hp, hmatched⟩)
    exact (Cancellation.mem_canceling.1 hcancels).2
  · intro hmatched
    exact (Cancellation.mem_canceling.1
      (hback (Cancellation.mem_canceling.2 ⟨List.mem_map_of_mem hp, hmatched⟩))).2

/-- The leaves that cancel stand at the same places on either side. -/
theorem map_matched_exchanged {leaves leaves' : List Node}
    (distinct : (leaves.map (·.hash)).Nodup) (distinct' : (leaves'.map (·.hash)).Nodup)
    (h : List.Forall₂ (fun n n' => n'.change.insert = n.change.remove ∧
      n'.change.remove = n.change.insert) leaves leaves') :
    leaves'.map (fun n => decide (n.hash ∈ matched leaves')) =
      leaves.map fun n => decide (n.hash ∈ matched leaves) := by
  obtain ⟨hlength, hzip⟩ := List.forall₂_iff_zip.1 h
  have hfst : (leaves.zip leaves').map (·.1) = leaves := List.map_fst_zip (Nat.le_of_eq hlength)
  have hsnd : (leaves.zip leaves').map (·.2) = leaves' :=
    List.map_snd_zip (Nat.le_of_eq hlength.symm)
  generalize leaves.zip leaves' = pairs at hzip hfst hsnd
  subst hfst hsnd
  rw [List.map_map, List.map_map]
  apply List.map_congr_left
  intro p hp
  exact decide_eq_decide.2
    (Exchanged.mem_matched_iff (fun _ hq => hzip hq) distinct distinct' hp).symm

end Cancellation

namespace Report

/-- For each leaf in turn whether it is canceled. -/
def flags (r : Report) : List Bool := r.leaves.map (·.change.canceled)

variable {digest : Digest} {latest baseline : Workload}

theorem total_eq_flags (digest : Digest) (latest baseline : Workload) (criteria : Option Criteria) :
    (build digest latest baseline criteria).total =
      (build digest latest baseline criteria).flags.length := by
  rw [total_build, flags, List.length_map]

theorem canceled_eq_flags (digest : Digest) (latest baseline : Workload)
    (criteria : Option Criteria) :
    (build digest latest baseline criteria).canceled =
      (build digest latest baseline criteria).flags.countP id := by
  rw [canceled_build, flags, List.countP_map]
  rfl

theorem flags_build (hfresh : ∀ n ∈ found digest latest baseline, n.change.canceled = false) :
    (build digest latest baseline none).flags = (found digest latest baseline).map fun n =>
      decide (n.hash ∈ Cancellation.matched (found digest latest baseline)) := by
  rw [flags, leaves_build, List.map_map]
  apply List.map_congr_left
  intro n hn
  dsimp only [Function.comp_apply]
  split
  · next h => simp [Node.cancel, h]
  · next h => simp [hfresh n hn, h]

end Report

section Mirror

variable {digest : Digest} {latest baseline : Workload} (hex : digest.Hexadecimal)
  (hlatest : latest.PlainNames) (hbaseline : baseline.PlainNames)
  (separates : digest.Separates (latest.digested digest baseline))
  (separates' : digest.Separates (baseline.digested digest latest))

include hex hlatest hbaseline separates separates'

theorem map_bare_found : (Report.found digest baseline latest).map (·.finding.bare) =
    (Report.found digest latest baseline).map (·.finding.mirrored) := by
  have hfound := map_finding_found hex (Workload.nodup_texts hex hlatest hbaseline) separates
  have hfound' := map_finding_found hex (Workload.nodup_texts hex hbaseline hlatest) separates'
  calc (Report.found digest baseline latest).map (·.finding.bare)
      = ((Report.found digest baseline latest).map Node.finding).map Finding.bare := by
        rw [List.map_map]; rfl
    _ = (baseline.outline latest).fields.map (·.finding.bare) := by
        rw [hfound', List.map_map]; rfl
    _ = (latest.outline baseline).fields.map (·.finding.mirrored) :=
        (latest.mirrors_outline baseline).fields
    _ = ((Report.found digest latest baseline).map Node.finding).map Finding.mirrored := by
        rw [hfound, List.map_map]; rfl
    _ = (Report.found digest latest baseline).map (·.finding.mirrored) := by
        rw [List.map_map]; rfl

theorem perm_bare_difference :
    ((difference digest baseline latest).nodes.map (·.finding.bare)).Perm
      ((difference digest latest baseline).nodes.map (·.finding.mirrored)) := by
  have hnodes := map_finding_difference hex (Workload.nodup_texts hex hlatest hbaseline) separates
  have hnodes' := map_finding_difference hex (Workload.nodup_texts hex hbaseline hlatest) separates'
  have hperm := (latest.mirrors_outline baseline).entries
  rw [show (fun d : Drift => d.finding.bare) = Finding.bare ∘ Drift.finding from rfl,
    show (fun d : Drift => d.finding.mirrored) = Finding.mirrored ∘ Drift.finding from rfl,
    ← List.map_map, ← List.map_map, ← hnodes, ← hnodes', List.map_map, List.map_map] at hperm
  exact hperm

theorem flags_mirrored : (Report.build digest baseline latest none).flags =
    (Report.build digest latest baseline none).flags := by
  obtain ⟨hdistinct, hfresh, -⟩ :=
    found_spec hex (Workload.nodup_texts hex hlatest hbaseline) separates
  obtain ⟨hdistinct', hfresh', -⟩ :=
    found_spec hex (Workload.nodup_texts hex hbaseline hlatest) separates'
  rw [Report.flags_build hfresh, Report.flags_build hfresh']
  apply Cancellation.map_matched_exchanged hdistinct hdistinct'
  have hfindings := map_bare_found hex hlatest hbaseline separates separates'
  rw [← List.forall₂_eq_eq_eq, List.forall₂_map_left_iff, List.forall₂_map_right_iff] at hfindings
  refine hfindings.flip.imp fun n n' heq => ?_
  exact ⟨congrArg (·.change.insert) heq, congrArg (·.change.remove) heq⟩

end Mirror

/-- Exchanging the snapshots mirrors the report. The leaves stand in the same order and tell the
same, but for the event that shows them, with what comes and what goes exchanged; so do the nodes
above them in some order; and the same leaves are canceled. -/
theorem report_mirrored {digest : Digest} {latest baseline : Workload} (hex : digest.Hexadecimal)
    (hlatest : latest.PlainNames) (hbaseline : baseline.PlainNames)
    (separates : digest.Separates (latest.digested digest baseline))
    (separates' : digest.Separates (baseline.digested digest latest)) :
    let g := difference digest latest baseline
    let g' := difference digest baseline latest
    let r := Report.build digest latest baseline none
    let r' := Report.build digest baseline latest none
    (g'.leaves (baseline.contentHash digest)).map (·.finding.bare) =
        (g.leaves (latest.contentHash digest)).map (·.finding.mirrored) ∧
      ((g'.nodes.filter fun n => 1 ≤ n.level ∧ n.level ≤ 3).map (·.finding.bare)).Perm
        ((g.nodes.filter fun n => 1 ≤ n.level ∧ n.level ≤ 3).map (·.finding.mirrored)) ∧
      r'.leaves.map (·.change.canceled) = r.leaves.map (·.change.canceled) ∧
      r'.total = r.total ∧ r'.canceled = r.canceled ∧ r'.active = r.active ∧
      r'.hasDrift = r.hasDrift := by
  intro g g' r r'
  have hflags : r'.flags = r.flags := flags_mirrored hex hlatest hbaseline separates separates'
  have htotal : r'.total = r.total := by
    rw [Report.total_eq_flags, Report.total_eq_flags, hflags]
  have hcanceled : r'.canceled = r.canceled := by
    rw [Report.canceled_eq_flags, Report.canceled_eq_flags, hflags]
  have hactive : r'.active = r.active := by rw [Report.active, Report.active, htotal, hcanceled]
  refine ⟨map_bare_found hex hlatest hbaseline separates separates', ?_, hflags, htotal, hcanceled,
    hactive, by rw [Report.hasDrift, Report.hasDrift, hactive]⟩
  have hperm := (perm_bare_difference hex hlatest hbaseline separates separates').filter
    fun f => decide (1 ≤ f.level ∧ f.level ≤ 3)
  rwa [List.filter_map, List.filter_map] at hperm

/-- Two accesses change places and a third one comes, or goes the other way round. -/
theorem report_mirrored_running :
    let latest := Workload.running
      (.accessing [some (.copying "x" "a"), none, some (.copying "y" "b"), some (.copying "z" "")])
    let baseline := Workload.running
      (.accessing [some (.copying "y" "b"), none, some (.copying "x" "a")])
    (((difference .spelled baseline latest).leaves (baseline.contentHash .spelled)).map
        fun n => (n.change.insert, n.change.remove)) =
      [(["y"], ["x"]), (["b"], ["a"]), (["x"], ["y"]), (["a"], ["b"]), ([], ["z"])] ∧
    (Report.build .spelled baseline latest none).active =
      (Report.build .spelled latest baseline none).active := by
  intro latest baseline
  have hlatest : latest.PlainNames := by decide
  have hbaseline : baseline.PlainNames := by decide
  obtain ⟨hleaves, -, -, -, -, hactive, -⟩ := report_mirrored Digest.hexadecimal_spelled hlatest
    hbaseline (Digest.separates_spelled _) (Digest.separates_spelled _)
  have hfields := map_finding_found Digest.hexadecimal_spelled
    (Workload.nodup_texts Digest.hexadecimal_spelled hlatest hbaseline)
    (Digest.separates_spelled (latest.digested .spelled baseline))
  have hchanges := congrArg (List.map fun f => (f.change.insert, f.change.remove)) hleaves
  have hknown := congrArg (List.map fun f => (f.change.remove, f.change.insert)) hfields
  rw [List.map_map, List.map_map] at hchanges hknown
  exact ⟨hchanges.trans (hknown.trans (by decide)), hactive⟩

end WorkloadDrift
