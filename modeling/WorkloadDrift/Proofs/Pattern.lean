import Mathlib.Data.List.TakeWhile
import WorkloadDrift.Pattern
import WorkloadDrift.Proofs.Except

/-!
# Values of a pattern set

Each value adds a set of its own, whatever was there before. So it matters which values
there are, but not in what order they come or how often, and a blank value adds nothing.
-/
namespace WorkloadDrift

/-- Whether a value has nothing but blanks. -/
def IsBlankValue (raw : String) : Prop := ∀ c ∈ raw.toList, Text.isBlank c

instance : DecidablePred IsBlankValue := fun raw =>
  List.decidableBAll (Text.isBlank ·) raw.toList

theorem IsBlankValue.trimBy {raw : String} (h : IsBlankValue raw) :
    Text.trimBy Text.isBlank raw.toList = [] := by
  have hnone : raw.toList.dropWhile Text.isBlank = [] := List.dropWhile_eq_nil_iff.2 h
  simp [Text.trimBy, hnone]

namespace PatternSet

instance : Append PatternSet := ⟨fun s t => ⟨s.literals ++ t.literals, s.regexes ++ t.regexes⟩⟩

theorem append_eq (s t : PatternSet) :
    s ++ t = ⟨s.literals ++ t.literals, s.regexes ++ t.regexes⟩ := rfl

theorem admits_append (s t : PatternSet) (text : String) :
    (s ++ t).admits text ↔ s.admits text ∨ t.admits text := by
  simp only [append_eq, admits, List.contains_eq_mem, List.mem_append, List.any_append,
    Bool.or_eq_true, decide_eq_true_iff]
  exact or_or_or_comm

theorem isConfigured_iff {s : PatternSet} : s.isConfigured ↔ s.literals ≠ [] ∨ s.regexes ≠ [] := by
  simp [isConfigured]

theorem isConfigured_append (s t : PatternSet) :
    (s ++ t).isConfigured ↔ s.isConfigured ∨ t.isConfigured := by
  simp only [append_eq, isConfigured_iff, ne_eq, List.append_eq_nil_iff, not_and_or]
  exact or_or_or_comm

/-- What a value adds. -/
def ofValue (raw : String) : Except PatternError PatternSet := addValue {} raw

theorem addValue_eq (s : PatternSet) (raw : String) :
    addValue s raw = (ofValue raw).map fun t => s ++ t := by
  unfold ofValue addValue
  generalize Text.trimBy Text.isBlank raw.toList = text
  split
  · next pattern =>
    cases compile raw (String.ofList (Text.trimBy isQuote pattern)) with
    | error e => rfl
    | ok regex => simp [Except.map, append_eq]
  · simp [Except.map, append_eq]
  · simp [Except.map, append_eq]

theorem ofValue_blank {raw : String} (h : IsBlankValue raw) : ofValue raw = .ok {} := by
  simp only [ofValue, addValue, h.trimBy]

variable {values values' : List String} {s s' : PatternSet}

/-- A list of values is accepted if each of them is. -/
theorem exists_foldlM_iff (s : PatternSet) : (∃ r, values.foldlM addValue s = .ok r) ↔
    ∀ raw ∈ values, ∃ t, ofValue raw = .ok t := by
  induction values generalizing s with
  | nil => simp [pure, Except.pure]
  | cons raw values ih =>
    rw [List.foldlM_cons, addValue_eq, List.forall_mem_cons]
    cases hraw : ofValue raw with
    | error e => simp [Except.map]
    | ok t => simpa [Except.map] using ih (s ++ t)

/-- What is so of sets if it is so of one of two parts is so of a set if it is so of what one of the
values adds. -/
theorem foldlM_iff (P : PatternSet → Prop) (happend : ∀ s t, P (s ++ t) ↔ P s ∨ P t) {r : PatternSet}
    (h : values.foldlM addValue s = .ok r) :
    P r ↔ P s ∨ ∃ raw ∈ values, ∃ t, ofValue raw = .ok t ∧ P t := by
  induction values generalizing s with
  | nil =>
    obtain rfl : s = r := by simpa [pure, Except.pure] using h
    simp
  | cons raw values ih =>
    rw [List.foldlM_cons, addValue_eq] at h
    cases hraw : ofValue raw with
    | error e => simp [hraw, Except.map] at h
    | ok t =>
      rw [hraw] at h
      rw [ih h, happend, or_assoc]
      simp [hraw]

variable {search : String → String → Bool}

/-- The set with another way of looking for its expressions. -/
def searching (search : String → String → Bool) (s : PatternSet) : PatternSet :=
  { s with regexes := s.regexes.map fun r => { r with isFoundIn := search r.pattern } }

@[simp] theorem isConfigured_searching (s : PatternSet) :
    (s.searching search).isConfigured = s.isConfigured := by
  simp [searching, isConfigured]

theorem searching_append (s t : PatternSet) :
    (s ++ t).searching search = s.searching search ++ t.searching search := by
  simp [searching, append_eq]

theorem admits_ofValues (h : ofValues values = .ok s) {text : String} :
    (s.searching search).admits text ↔
      ∃ raw ∈ values, ∃ t, ofValue raw = .ok t ∧ (t.searching search).admits text := by
  have hfold := foldlM_iff (fun s => (s.searching search).admits text)
    (fun s t => by rw [searching_append, admits_append]) h
  simpa [searching, admits] using hfold

theorem isConfigured_ofValues (h : ofValues values = .ok s) :
    s.isConfigured ↔ ∃ raw ∈ values, ∃ t, ofValue raw = .ok t ∧ t.isConfigured := by
  have hfold := foldlM_iff (·.isConfigured) isConfigured_append h
  simpa [isConfigured] using hfold

/-- More values have an effect if fewer have. -/
theorem isConfigured_of_subset (h : ofValues values = .ok s) (h' : ofValues values' = .ok s')
    (hsubset : values ⊆ values') (hs : s.isConfigured) : s'.isConfigured := by
  obtain ⟨raw, hraw, t, ht, hconfigured⟩ := (isConfigured_ofValues h).1 hs
  exact (isConfigured_ofValues h').2 ⟨raw, hsubset hraw, t, ht, hconfigured⟩

/-- Values give a set no effect that it had before, or that is not given. -/
theorem isConfigured_of_append {more : List String} (h : ofValues values = .ok s)
    (h' : ofValues (values ++ more) = .ok s') (hmore : more ≠ [] → s.isConfigured)
    (hs' : s'.isConfigured) : s.isConfigured := by
  by_cases hnone : more = []
  · exact isConfigured_of_subset h' h (by simp [hnone]) hs'
  · exact hmore hnone

/-- Whether a set has an effect if another one has, and admits what that admits. -/
structure WidensTo (s s' : PatternSet) : Prop where
  configured : s.isConfigured → s'.isConfigured
  admits (text : String) : s.admits text → s'.admits text

/-- Whether a set has an effect if another one has, and admits nothing that that does not. -/
structure NarrowsTo (s s' : PatternSet) : Prop where
  configured : s.isConfigured → s'.isConfigured
  admits (text : String) : s'.admits text → s.admits text

/-- A set widens as it is given more values. -/
theorem widensTo_of_subset (h : ofValues values = .ok s) (h' : ofValues values' = .ok s')
    (hsubset : values ⊆ values') : (s.searching search).WidensTo (s'.searching search) where
  configured hs := by
    rw [isConfigured_searching] at hs ⊢
    exact isConfigured_of_subset h h' hsubset hs
  admits text hs := by
    obtain ⟨raw, hraw, t, ht, hadmits⟩ := (admits_ofValues h).1 hs
    exact (admits_ofValues h').2 ⟨raw, hsubset hraw, t, ht, hadmits⟩

/-- A set narrows as it loses values, unless it loses its effect with the last one. -/
theorem narrowsTo_of_subset (h : ofValues values = .ok s) (h' : ofValues values' = .ok s')
    (hsubset : values' ⊆ values) (hconfigured : s.isConfigured → s'.isConfigured) :
    (s.searching search).NarrowsTo (s'.searching search) where
  configured hs := by
    rw [isConfigured_searching] at hs ⊢
    exact hconfigured hs
  admits := (widensTo_of_subset h' h hsubset).admits

/-- Of values that are accepted, fewer are accepted too. -/
theorem exists_ofValues_of_subset (h : ofValues values = .ok s) (hsubset : values' ⊆ values) :
    ∃ s', ofValues values' = .ok s' :=
  (exists_foldlM_iff {}).2 fun raw hraw => (exists_foldlM_iff {}).1 ⟨s, h⟩ raw (hsubset hraw)

theorem ofValues_append_blank (values : List String) {blanks : List String}
    (hblank : ∀ raw ∈ blanks, IsBlankValue raw) : ofValues (values ++ blanks) = ofValues values := by
  have hrest (s : PatternSet) : blanks.foldlM addValue s = .ok s := by
    induction blanks with
    | nil => rfl
    | cons raw blanks ih =>
      obtain ⟨hraw, hblank⟩ := List.forall_mem_cons.1 hblank
      rw [List.foldlM_cons, addValue_eq, ofValue_blank hraw]
      simpa [Except.map, append_eq] using ih hblank
  unfold ofValues
  rw [List.foldlM_append]
  cases values.foldlM addValue {} with
  | error e => rfl
  | ok s => exact hrest s

/-! ## The search of the program -/

/-- Whether a text has a match of a pattern; a pattern that is no expression has none. -/
def finds (pattern text : String) : Bool :=
  match Regex.read pattern.toList with
  | .ok expr => expr.foundIn text.toList
  | .error _ => false

theorem isFoundIn_of_compile {raw pattern : String} {r : CompiledRegex}
    (h : compile raw pattern = .ok r) : r.isFoundIn = finds r.pattern := by
  unfold compile at h
  split at h
  · cases h
  · split at h
    · cases h
    · split at h
      · next expr hread =>
        cases h
        funext text
        simp [finds, hread]
      · cases h

theorem isFoundIn_of_ofValue {raw : String} {t : PatternSet} (h : ofValue raw = .ok t) :
    ∀ r ∈ t.regexes, r.isFoundIn = finds r.pattern := by
  unfold ofValue addValue at h
  split at h
  · obtain ⟨regex, hregex, ht⟩ := Except.bind_eq_ok_iff.1 h
    cases ht
    simpa using isFoundIn_of_compile hregex
  · cases h
    simp
  · cases h
    simp

/-- What values make of expressions looks for them as the program does. -/
theorem searching_finds (h : ofValues values = .ok s) : s.searching finds = s := by
  have hfold := foldlM_iff (fun s => ∃ r ∈ s.regexes, r.isFoundIn ≠ finds r.pattern)
    (fun s t => by simp [append_eq, or_and_right, exists_or]) h
  have hown : ∀ r ∈ s.regexes, r.isFoundIn = finds r.pattern := by
    intro r hr
    by_contra hne
    obtain ⟨r, hr, -⟩ | ⟨raw, -, t, ht, r, hr, hne⟩ := hfold.1 ⟨r, hr, hne⟩
    · simp at hr
    · exact hne (isFoundIn_of_ofValue ht r hr)
  have hregexes : (s.regexes.map fun r => { r with isFoundIn := finds r.pattern }) = s.regexes :=
    (List.map_congr_left fun r hr => by rw [← hown r hr, id_eq]).trans (List.map_id _)
  rw [searching, hregexes]

end PatternSet
end WorkloadDrift
