import WorkloadDrift.Proofs.Pattern
import WorkloadDrift.Proofs.Regex.FlagGroups

/-!
# Values that are flags only

An expression of flags only is found in every text. The spellings with one group of one
letter are refused by name, but for `u`. All others are expressions like any other: they
are accepted unless their flags ask for characters of both types.
-/
namespace WorkloadDrift.PatternSet

open Regex

/-- Whether a value is an expression of groups of global flags only. -/
structure IsFlagsOnly (raw : String) (groups : List (List Char)) : Prop
    extends FlagsOnly groups where
  isRegex : ∃ pattern, Text.trimBy Text.isBlank raw.toList = 'r' :: ':' :: pattern ∧
    Text.trimBy isQuote pattern = flagText groups

def flagPattern (groups : List (List Char)) : String := .ofList (flagText groups)

theorem flagPattern_ne_empty {groups : List (List Char)} (h : FlagsOnly groups) :
    flagPattern groups ≠ "" := by
  obtain ⟨letters, groups, rfl⟩ := List.exists_cons_of_ne_nil h.ne_nil
  simp [flagPattern, flagText, flagGroup]

/-- What a text that is only flags adds: an expression that is found everywhere. -/
def foundEverywhere (groups : List (List Char)) : PatternSet where
  regexes := [⟨flagPattern groups, fun text => Expr.empty.foundIn text.toList⟩]

namespace IsFlagsOnly

variable {raw : String} {groups : List (List Char)}

theorem ofValue_eq (h : IsFlagsOnly raw groups) :
    ofValue raw = (compile raw (flagPattern groups)).map fun r => { regexes := [r] } := by
  obtain ⟨pattern, hraw, hpattern⟩ := h.isRegex
  simp only [ofValue, addValue, hraw, hpattern, flagPattern]
  rfl

theorem ofValue_listed (h : IsFlagsOnly raw groups) (hlisted : flagPattern groups ∈ bareFlags) :
    ofValue raw = .error (.bareFlag (flagPattern groups)) := by
  have hcontains : bareFlags.contains (flagPattern groups) := by simpa using hlisted
  rw [h.ofValue_eq, compile, if_neg (flagPattern_ne_empty h.toFlagsOnly), if_pos hcontains]
  rfl

/-- A value that is not refused by name is read. -/
theorem ofValue_unlisted (h : IsFlagsOnly raw groups) (hlisted : flagPattern groups ∉ bareFlags) :
    ofValue raw = match read (flagText groups) with
      | .ok expr => .ok { regexes := [⟨flagPattern groups, fun text => expr.foundIn text.toList⟩] }
      | .error fault => .error (.refused (flagPattern groups) fault) := by
  have hcontains : ¬ bareFlags.contains (flagPattern groups) := by simpa using hlisted
  have hpattern : (flagPattern groups).toList = flagText groups := by simp [flagPattern]
  rw [h.ofValue_eq, compile, if_neg (flagPattern_ne_empty h.toFlagsOnly), if_neg hcontains,
    hpattern]
  cases read (flagText groups) <;> rfl

theorem ofValue_conflict (h : IsFlagsOnly raw groups) (hlisted : flagPattern groups ∉ bareFlags)
    (hconflict : Conflict groups.flatten) :
    ∃ fault, ofValue raw = .error (.refused (flagPattern groups) fault) ∧
      (fault.isMalformed ↔ ∃ letters ∈ groups, Conflict letters) := by
  obtain ⟨hsame, hfault⟩ := sameUnless_read h.toFlagsOnly
  rw [h.ofValue_unlisted hlisted]
  by_cases hgroup : ∃ letters ∈ groups, Conflict letters
  · obtain ⟨place, hread⟩ := hfault hgroup
    rw [hread]
    exact ⟨_, rfl, by simpa [Fault.isMalformed] using hgroup⟩
  · rw [hsame hgroup, if_pos hconflict]
    exact ⟨_, rfl, by simpa [Fault.isMalformed] using hgroup⟩

theorem ofValue_accepted (h : IsFlagsOnly raw groups) (hlisted : flagPattern groups ∉ bareFlags)
    (hnone : ¬ Conflict groups.flatten) : ofValue raw = .ok (foundEverywhere groups) := by
  have hgroup : ¬ ∃ letters ∈ groups, Conflict letters := by
    rintro ⟨letters, hletters, hconflict⟩
    exact hnone (hconflict.mono fun c hc => List.mem_flatten.2 ⟨letters, hletters, hc⟩)
  rw [h.ofValue_unlisted hlisted, (sameUnless_read h.toFlagsOnly).same hgroup, if_neg hnone]
  rfl

theorem exists_ofValue_iff (h : IsFlagsOnly raw groups) :
    (∃ t, ofValue raw = .ok t) ↔ flagPattern groups ∉ bareFlags ∧ ¬ Conflict groups.flatten := by
  constructor
  · rintro ⟨t, ht⟩
    have hlisted : flagPattern groups ∉ bareFlags := by
      intro hlisted
      rw [h.ofValue_listed hlisted] at ht
      cases ht
    refine ⟨hlisted, fun hconflict => ?_⟩
    obtain ⟨fault, hfault, -⟩ := h.ofValue_conflict hlisted hconflict
    rw [hfault] at ht
    cases ht
  · rintro ⟨hlisted, hnone⟩
    exact ⟨_, h.ofValue_accepted hlisted hnone⟩

end IsFlagsOnly

theorem ofValues_singleton (raw : String) : ofValues [raw] = ofValue raw := by
  rw [ofValues, List.foldlM_cons, ofValue]
  cases addValue {} raw <;> rfl

/-- Values among which one is only flags are accepted as if it were an expression: if it is
not refused by name, its flags agree, and the other values are accepted. Then one expression
of the set is found in every text. A conflict within one group makes the expression
malformed; one between groups is no fault of it as an expression. -/
theorem flagsOnly_accepted_iff {raw : String} {groups : List (List Char)}
    (h : IsFlagsOnly raw groups) {values : List String} (hraw : raw ∈ values) :
    ((∃ s, ofValues values = .ok s) ↔
      (flagPattern groups ∉ bareFlags ∧ ¬ Conflict groups.flatten) ∧
        ∀ other ∈ values, other ≠ raw → ∃ t, ofValue other = .ok t) ∧
    (∀ s, ofValues values = .ok s →
      ∃ r ∈ s.regexes, r.pattern = flagPattern groups ∧ ∀ text, r.isFoundIn text) ∧
    (flagPattern groups ∈ bareFlags → ofValues [raw] = .error (.bareFlag (flagPattern groups))) ∧
    (flagPattern groups ∉ bareFlags → Conflict groups.flatten →
      ∃ fault, ofValues [raw] = .error (.refused (flagPattern groups) fault) ∧
        (fault.isMalformed ↔ ∃ letters ∈ groups, Conflict letters)) := by
  rw [ofValues_singleton]
  refine ⟨?_, fun s hs => ?_, h.ofValue_listed, h.ofValue_conflict⟩
  · rw [ofValues, exists_foldlM_iff, ← h.exists_ofValue_iff]
    constructor
    · exact fun hall => ⟨hall raw hraw, fun other hother _ => hall other hother⟩
    · rintro ⟨hown, hothers⟩ other hother
      by_cases heq : other = raw
      · exact heq ▸ hown
      · exact hothers other hother heq
  · obtain ⟨hlisted, hnone⟩ := h.exists_ofValue_iff.1 ((exists_foldlM_iff {}).1 ⟨s, hs⟩ raw hraw)
    have hfold := foldlM_iff
      (fun s => ∃ r ∈ s.regexes, r.pattern = flagPattern groups ∧ ∀ text, r.isFoundIn text)
      (fun s t => by simp [append_eq, or_and_right, exists_or]) hs
    refine hfold.2 (.inr ⟨raw, hraw, _, h.ofValue_accepted hlisted hnone, ?_⟩)
    exact ⟨_, List.mem_singleton_self _, rfl, fun text => foundIn_empty text.toList⟩

/-- Neither blanks nor quotes nor a second group hide that a value is only flags. -/
theorem flagsOnly_accepted_quoted :
    IsFlagsOnly " r:'(?u)(?is)' " [['u'], ['i', 's']] ∧
      ∃ s, ofValues ["job/a", " r:'(?u)(?is)' "] = .ok s ∧
        ∃ r ∈ s.regexes, r.pattern = "(?u)(?is)" ∧ ∀ text, r.isFoundIn text := by
  have hflags : IsFlagsOnly " r:'(?u)(?is)' " [['u'], ['i', 's']] :=
    ⟨⟨by decide, by decide, by decide⟩, "'(?u)(?is)'".toList, by decide, by decide⟩
  have hraw : " r:'(?u)(?is)' " ∈ ["job/a", " r:'(?u)(?is)' "] := by simp
  obtain ⟨haccepted, hfound, -⟩ := flagsOnly_accepted_iff hflags hraw
  have hothers : ∀ other ∈ ["job/a", " r:'(?u)(?is)' "], other ≠ " r:'(?u)(?is)' " →
      ∃ t, ofValue other = .ok t := by
    intro other hother hne
    obtain rfl : other = "job/a" := by simpa [hne] using hother
    exact ⟨{ literals := ["job/a"] }, by rfl⟩
  obtain ⟨s, hs⟩ := haccepted.2 ⟨by decide, hothers⟩
  obtain ⟨r, hr, hpattern, htext⟩ := hfound s hs
  exact ⟨hflags, s, hs, r, hr, hpattern.trans (by decide), htext⟩

/-- Two letters in one group are not refused by name, and are found in every text. -/
theorem ofValues_accepts_twoLetters : IsFlagsOnly "r:(?im)" [['i', 'm']] ∧
    ∃ s, ofValues ["r:(?im)"] = .ok s ∧ ∀ text, s.admits text := by
  have hflags : IsFlagsOnly "r:(?im)" [['i', 'm']] :=
    ⟨⟨by decide, by decide, by decide⟩, "(?im)".toList, by decide, by decide⟩
  refine ⟨hflags, foundEverywhere [['i', 'm']], ?_, fun text => ?_⟩
  · rw [ofValues_singleton]
    exact hflags.ofValue_accepted (by decide) (by decide)
  · simp [foundEverywhere, admits, foundIn_empty]

end WorkloadDrift.PatternSet
