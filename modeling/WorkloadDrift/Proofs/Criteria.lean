import WorkloadDrift.Criteria
import WorkloadDrift.Proofs.Pattern

/-!
# What criteria reject

An admitting set rejects the more the less it admits, an excluding one the more it
has. So criteria reject at least what others reject if set by set they do.
-/
namespace WorkloadDrift

/-! ## Values -/

namespace CriteriaValues

/-- The values of one after those of another, in each list. -/
instance : Append CriteriaValues where
  append v more := {
    workloads := v.workloads ++ more.workloads
    sources := v.sources ++ more.sources
    destinations := v.destinations ++ more.destinations
    ignoredCommands := v.ignoredCommands ++ more.ignoredCommands
    ignoredPaths := v.ignoredPaths ++ more.ignoredPaths }

theorem append_eq (v more : CriteriaValues) : v ++ more =
    ⟨v.workloads ++ more.workloads, v.sources ++ more.sources, v.destinations ++ more.destinations,
      v.ignoredCommands ++ more.ignoredCommands, v.ignoredPaths ++ more.ignoredPaths⟩ := rfl

/-- Whether each list has the values of another one, in whatever order and however often. -/
structure Within (v v' : CriteriaValues) : Prop where
  workloads : v.workloads ⊆ v'.workloads
  sources : v.sources ⊆ v'.sources
  destinations : v.destinations ⊆ v'.destinations
  ignoredCommands : v.ignoredCommands ⊆ v'.ignoredCommands
  ignoredPaths : v.ignoredPaths ⊆ v'.ignoredPaths

theorem within_append (v more : CriteriaValues) : v.Within (v ++ more) :=
  ⟨List.subset_append_left .., List.subset_append_left .., List.subset_append_left ..,
    List.subset_append_left .., List.subset_append_left ..⟩

/-- Whether all values are blank. -/
structure Blank (v : CriteriaValues) : Prop where
  workloads : ∀ raw ∈ v.workloads, IsBlankValue raw
  sources : ∀ raw ∈ v.sources, IsBlankValue raw
  destinations : ∀ raw ∈ v.destinations, IsBlankValue raw
  ignoredCommands : ∀ raw ∈ v.ignoredCommands, IsBlankValue raw
  ignoredPaths : ∀ raw ∈ v.ignoredPaths, IsBlankValue raw

end CriteriaValues

namespace Criteria

/-- The criteria with another way of looking for expressions. -/
def searching (search : String → String → Bool) (c : Criteria) : Criteria where
  workloads := c.workloads.searching search
  sources := c.sources.searching search
  destinations := c.destinations.searching search
  ignoredCommands := c.ignoredCommands.searching search
  ignoredPaths := c.ignoredPaths.searching search

variable {v v' : CriteriaValues} {c c' : Criteria} {search : String → String → Bool}

/-- Criteria come of values set by set. -/
theorem ofValues_eq_ok_iff : ofValues v = .ok c ↔
    PatternSet.ofValues v.workloads = .ok c.workloads ∧
      PatternSet.ofValues v.sources = .ok c.sources ∧
      PatternSet.ofValues v.destinations = .ok c.destinations ∧
      PatternSet.ofValues v.ignoredCommands = .ok c.ignoredCommands ∧
      PatternSet.ofValues v.ignoredPaths = .ok c.ignoredPaths := by
  simp only [ofValues, Except.bind_eq_ok_iff, Except.pure_eq_ok, Except.ok.injEq]
  constructor
  · rintro ⟨w, hw, s, hs, d, hd, i, hi, p, hp, rfl⟩
    exact ⟨hw, hs, hd, hi, hp⟩
  · rintro ⟨hw, hs, hd, hi, hp⟩
    exact ⟨_, hw, _, hs, _, hd, _, hi, _, hp, rfl⟩

/-- Of values that are accepted, fewer are accepted too. -/
theorem exists_ofValues_of_within (h : ofValues v = .ok c) (hwithin : v'.Within v) :
    ∃ c', ofValues v' = .ok c' := by
  obtain ⟨hw, hs, hd, hi, hp⟩ := ofValues_eq_ok_iff.1 h
  obtain ⟨w, hw⟩ := PatternSet.exists_ofValues_of_subset hw hwithin.workloads
  obtain ⟨s, hs⟩ := PatternSet.exists_ofValues_of_subset hs hwithin.sources
  obtain ⟨d, hd⟩ := PatternSet.exists_ofValues_of_subset hd hwithin.destinations
  obtain ⟨i, hi⟩ := PatternSet.exists_ofValues_of_subset hi hwithin.ignoredCommands
  obtain ⟨p, hp⟩ := PatternSet.exists_ofValues_of_subset hp hwithin.ignoredPaths
  exact ⟨⟨w, s, d, i, p⟩, ofValues_eq_ok_iff.2 ⟨hw, hs, hd, hi, hp⟩⟩

theorem ofValues_append_blank (v : CriteriaValues) {blanks : CriteriaValues} (h : blanks.Blank) :
    ofValues (v ++ blanks) = ofValues v := by
  obtain ⟨hw, hs, hd, hi, hp⟩ := h
  simp only [ofValues, CriteriaValues.append_eq, PatternSet.ofValues_append_blank _ hw,
    PatternSet.ofValues_append_blank _ hs, PatternSet.ofValues_append_blank _ hd,
    PatternSet.ofValues_append_blank _ hi, PatternSet.ofValues_append_blank _ hp]

/-- The criteria of values look for expressions as the program does. -/
theorem searching_finds (h : ofValues v = .ok c) : c.searching PatternSet.finds = c := by
  obtain ⟨hw, hs, hd, hi, hp⟩ := ofValues_eq_ok_iff.1 h
  simp only [searching, PatternSet.searching_finds hw, PatternSet.searching_finds hs,
    PatternSet.searching_finds hd, PatternSet.searching_finds hi, PatternSet.searching_finds hp]

/-! ## Rejection -/

theorem turnsDown_mono {s s' : PatternSet} (h : s.NarrowsTo s') {value : String}
    (hs : turnsDown s value) : turnsDown s' value := by
  simp only [turnsDown, Bool.and_eq_true, Bool.not_eq_true', ← Bool.not_eq_true] at hs ⊢
  exact ⟨⟨h.configured hs.1.1, hs.1.2⟩, mt (h.admits value) hs.2⟩

theorem excludes_mono {s s' : PatternSet} (h : s.WidensTo s') {value : String}
    (hs : excludes s value) : excludes s' value := by
  simp only [excludes, Bool.and_eq_true] at hs ⊢
  exact ⟨⟨h.configured hs.1.1, hs.1.2⟩, h.admits value hs.2⟩

/-- Whether each set is against whatever the same set of other criteria is against. -/
structure TightensTo (c c' : Criteria) : Prop where
  workloads : c.workloads.NarrowsTo c'.workloads
  sources : c.sources.NarrowsTo c'.sources
  destinations : c.destinations.NarrowsTo c'.destinations
  ignoredCommands : c.ignoredCommands.WidensTo c'.ignoredCommands
  ignoredPaths : c.ignoredPaths.WidensTo c'.ignoredPaths

namespace TightensTo

theorem rejectsFile (h : c.TightensTo c') {e : FileEvent} (he : c.rejectsFile e) :
    c'.rejectsFile e := by
  simp only [Criteria.rejectsFile, Bool.or_eq_true] at he ⊢
  exact he.imp (.imp (.imp (turnsDown_mono h.sources) (turnsDown_mono h.destinations))
    (excludes_mono h.ignoredPaths)) (excludes_mono h.ignoredPaths)

theorem rejects (h : c.TightensTo c') {n : Node} (hn : c.rejects n) : c'.rejects n := by
  simp only [Criteria.rejects, Bool.or_eq_true, Bool.and_eq_true, Bool.not_eq_true',
    ← Bool.not_eq_true] at hn ⊢
  refine hn.imp (.imp (fun hw => ⟨h.workloads.configured hw.1, mt (h.workloads.admits _) hw.2⟩) ?_) ?_
  · cases n.file with
    | none => simp
    | some e => exact h.rejectsFile
  · cases n.network with
    | none => simp
    | some e => exact excludes_mono h.ignoredCommands

end TightensTo

/-- Fewer values in configured admitting sets and more in excluding ones tighten criteria. -/
theorem tightensTo_of_subset (h : ofValues v = .ok c) (h' : ofValues v' = .ok c')
    (hworkloads : v'.workloads ⊆ v.workloads ∧ (c.workloads.isConfigured → c'.workloads.isConfigured))
    (hsources : v'.sources ⊆ v.sources ∧ (c.sources.isConfigured → c'.sources.isConfigured))
    (hdestinations : v'.destinations ⊆ v.destinations ∧
      (c.destinations.isConfigured → c'.destinations.isConfigured))
    (hcommands : v.ignoredCommands ⊆ v'.ignoredCommands) (hpaths : v.ignoredPaths ⊆ v'.ignoredPaths) :
    (c.searching search).TightensTo (c'.searching search) := by
  obtain ⟨hw, hs, hd, hi, hp⟩ := ofValues_eq_ok_iff.1 h
  obtain ⟨hw', hs', hd', hi', hp'⟩ := ofValues_eq_ok_iff.1 h'
  exact ⟨PatternSet.narrowsTo_of_subset hw hw' hworkloads.1 hworkloads.2,
    PatternSet.narrowsTo_of_subset hs hs' hsources.1 hsources.2,
    PatternSet.narrowsTo_of_subset hd hd' hdestinations.1 hdestinations.2,
    PatternSet.widensTo_of_subset hi hi' hcommands, PatternSet.widensTo_of_subset hp hp' hpaths⟩

/-- The same values to admit and more to ignore tighten criteria. -/
theorem tightensTo_of_within (h : ofValues v = .ok c) (h' : ofValues v' = .ok c')
    (hwithin : v.Within v') (hworkloads : v'.workloads ⊆ v.workloads)
    (hsources : v'.sources ⊆ v.sources) (hdestinations : v'.destinations ⊆ v.destinations) :
    (c.searching search).TightensTo (c'.searching search) := by
  obtain ⟨hw, hs, hd, -, -⟩ := ofValues_eq_ok_iff.1 h
  obtain ⟨hw', hs', hd', -, -⟩ := ofValues_eq_ok_iff.1 h'
  exact tightensTo_of_subset h h'
    ⟨hworkloads, PatternSet.isConfigured_of_subset hw hw' hwithin.workloads⟩
    ⟨hsources, PatternSet.isConfigured_of_subset hs hs' hwithin.sources⟩
    ⟨hdestinations, PatternSet.isConfigured_of_subset hd hd' hwithin.destinations⟩
    hwithin.ignoredCommands hwithin.ignoredPaths

/-- More values to admit loosen criteria, unless they are the first ones of an option. -/
theorem tightensTo_of_append {workloads sources destinations : List String}
    (h : ofValues v = .ok c) (h' : ofValues (v ++ { workloads, sources, destinations }) = .ok c')
    (hworkloads : workloads ≠ [] → c.workloads.isConfigured)
    (hsources : sources ≠ [] → c.sources.isConfigured)
    (hdestinations : destinations ≠ [] → c.destinations.isConfigured) :
    (c'.searching search).TightensTo (c.searching search) := by
  obtain ⟨hw, hs, hd, -, -⟩ := ofValues_eq_ok_iff.1 h
  obtain ⟨hw', hs', hd', -, -⟩ := ofValues_eq_ok_iff.1 h'
  have hfewer := v.within_append { workloads, sources, destinations }
  exact tightensTo_of_subset h' h
    ⟨hfewer.workloads, PatternSet.isConfigured_of_append hw hw' hworkloads⟩
    ⟨hfewer.sources, PatternSet.isConfigured_of_append hs hs' hsources⟩
    ⟨hfewer.destinations, PatternSet.isConfigured_of_append hd hd' hdestinations⟩
    (by simp [CriteriaValues.append_eq]) (by simp [CriteriaValues.append_eq])

end Criteria
end WorkloadDrift
