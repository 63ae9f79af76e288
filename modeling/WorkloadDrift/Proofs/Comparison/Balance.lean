import WorkloadDrift.Proofs.Comparison.Edits

/-!
# Edits account for the values

What the edits of two resources bring and take of a value is what the one has
more of it than the other, unless an empty entry hides the event that it faces.
-/
namespace WorkloadDrift

/-- The texts of the compared fields of an entry; none if it is empty. -/
def EventCategory.values (category : EventCategory) (e : Option Event) : List String :=
  e.toList.flatMap fun e => category.comparedFields.map e.fieldValue

/-- The texts of the compared fields of all events. -/
def Resource.comparedValues (r : Resource) : List String :=
  EventCategory.all.flatMap fun category => (r.events.get category).flatMap category.values

/-- At no position that both lists have an event faces an empty entry. -/
def Resource.Aligned (latest baseline : Resource) : Prop :=
  ∀ category ∈ EventCategory.all, ∀ pair ∈ (latest.events.get category).zip (baseline.events.get category),
    pair.1.isSome = pair.2.isSome

instance (latest baseline : Resource) : Decidable (latest.Aligned baseline) :=
  inferInstanceAs (Decidable (∀ category ∈ EventCategory.all,
    ∀ pair ∈ (latest.events.get category).zip (baseline.events.get category),
      pair.1.isSome = pair.2.isSome))

/-- The edits turn the occurrences of a value on the baseline side into those on the latest one. -/
def Balanced (v : String) (edits : List FieldEdit) (latest baseline : List String) : Prop :=
  (edits.map (·.new)).count v + baseline.count v = (edits.map (·.old)).count v + latest.count v

namespace Balanced

variable {v : String}

theorem nil : Balanced v [] [] [] := rfl

theorem append {edits edits' : List FieldEdit} {latest latest' baseline baseline' : List String}
    (h : Balanced v edits latest baseline) (h' : Balanced v edits' latest' baseline') :
    Balanced v (edits ++ edits') (latest ++ latest') (baseline ++ baseline') := by
  simp only [Balanced, List.map_append, List.count_append] at *
  omega

theorem flatMap {β : Type} {l : List β} {edits : β → List FieldEdit} {latest baseline : β → List String}
    (h : ∀ b ∈ l, Balanced v (edits b) (latest b) (baseline b)) :
    Balanced v (l.flatMap edits) (l.flatMap latest) (l.flatMap baseline) := by
  induction l with
  | nil => exact nil
  | cons b l ih =>
    simp only [List.flatMap_cons]
    exact (h b (by simp)).append (ih fun c hc => h c (by simp [hc]))

end Balanced

section Values

variable {v : String} (hv : v ≠ "")

theorem balanced_fieldEdit? (latest baseline : Option Event) (field : String) :
    Balanced v (fieldEdit? latest baseline field).toList [fieldText latest field]
      [fieldText baseline field] := by
  unfold fieldEdit? Balanced
  split
  · next heq => simp [heq]
  · simp [Nat.add_comm]

include hv in
theorem count_values (category : EventCategory) (e : Option Event) :
    (category.values e).count v = (category.comparedFields.map (fieldText e)).count v := by
  cases e with
  | none =>
    have hnone : category.comparedFields.map (fieldText none) =
        List.replicate category.comparedFields.length "" := List.map_const' ..
    rw [hnone, List.count_replicate]
    simp [EventCategory.values, Ne.symm hv]
  | some e =>
    simp only [EventCategory.values, Option.toList_some, List.flatMap_singleton]
    rfl

include hv in
theorem balanced_editsAt (category : EventCategory) (latest baseline : Option Event) :
    Balanced v (editsAt category (latest, baseline)) (category.values latest)
      (category.values baseline) := by
  have hfields : Balanced v (editsAt category (latest, baseline))
      (category.comparedFields.map (fieldText latest))
      (category.comparedFields.map (fieldText baseline)) := by
    rw [editsAt, List.filterMap_eq_flatMap_toList, List.map_eq_flatMap, List.map_eq_flatMap]
    exact .flatMap fun field _ => balanced_fieldEdit? latest baseline field
  rwa [Balanced, count_values hv, count_values hv]

include hv in
theorem balanced_faced (category : EventCategory) (latest baseline : List (Option Event))
    (aligned : ∀ pair ∈ latest.zip baseline, pair.1.isSome = pair.2.isSome) :
    Balanced v ((faced latest baseline).flatMap (editsAt category))
      (latest.flatMap category.values) (baseline.flatMap category.values) := by
  have hnone (l : List (Option Event)) : (l.flatMap fun _ => category.values none) = [] :=
    List.flatMap_eq_nil_iff.2 fun _ _ => rfl
  induction latest, baseline using faced.induct with
  | case1 new latest old baseline ih =>
    exact (balanced_editsAt hv category (some new) (some old)).append
      (ih fun pair hpair => aligned pair (List.mem_cons_of_mem _ hpair))
  | case2 x latest y baseline hx ih =>
    have hempty : x = none ∧ y = none := by
      have hsides : x.isSome = y.isSome := aligned (x, y) (by simp)
      cases x with
      | none =>
        cases y with
        | none => exact ⟨rfl, rfl⟩
        | some old => simp at hsides
      | some new =>
        cases y with
        | none => simp at hsides
        | some old => exact absurd rfl (hx new old rfl)
    obtain ⟨rfl, rfl⟩ := hempty
    exact (balanced_editsAt hv category none none).append
      (ih fun pair hpair => aligned pair (List.mem_cons_of_mem _ hpair))
  | case3 latest =>
    have hadded := Balanced.flatMap (l := latest) fun e _ => balanced_editsAt hv category e none
    rw [hnone] at hadded
    simpa [faced, List.flatMap_map] using hadded
  | case4 baseline =>
    have hlost := Balanced.flatMap (l := baseline) fun e _ => balanced_editsAt hv category none e
    rw [hnone] at hlost
    simpa [faced, List.flatMap_map] using hlost

end Values

theorem Resource.balanced {latest baseline : Resource} (aligned : latest.Aligned baseline) {v : String}
    (hv : v ≠ "") :
    Balanced v (latest.edits baseline) latest.comparedValues baseline.comparedValues :=
  .flatMap fun category hcategory => balanced_faced hv category _ _ (aligned category hcategory)

/-- What the edits bring and take of a value is what the shared resources have of it, latest against
baseline. -/
theorem Workload.balanced {latest baseline : Workload}
    (aligned : ∀ pair ∈ latest.sharedResources baseline, pair.1.Aligned pair.2) {v : String}
    (hv : v ≠ "") :
    Balanced v (latest.edits baseline)
      ((latest.sharedResources baseline).flatMap fun pair => pair.1.comparedValues)
      ((latest.sharedResources baseline).flatMap fun pair => pair.2.comparedValues) :=
  .flatMap fun pair hpair => Resource.balanced (aligned pair hpair) hv

end WorkloadDrift
