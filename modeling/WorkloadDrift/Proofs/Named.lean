import Mathlib.Data.List.Nodup
import WorkloadDrift.Named

/-!
# Two mappings side by side

Looking up names, making mappings from lists, and walking two mappings together.
-/
namespace WorkloadDrift

variable {α : Type}

theorem Ascending.nodup_names {l : List (String × α)} (h : Ascending l) : (l.map (·.1)).Nodup := by
  refine List.pairwise_map.2 (h.imp fun hlt heq => ?_)
  exact absurd (heq ▸ hlt) (String.lt_irrefl _)

/-- Entries have one ascending order. -/
theorem Ascending.eq_of_perm {l l' : List (String × α)} (hl : Ascending l) (hl' : Ascending l')
    (h : l.Perm l') : l = l' := by
  refine h.eq_of_pairwise ?_ hl hl'
  intro a b _ _ hab hba
  exact absurd (String.lt_trans hab hba) (String.lt_irrefl _)

namespace Named

theorem nodup_names (m : Named α) : (m.entries.map (·.1)).Nodup := m.ascending.nodup_names

theorem get?_eq_none_iff {m : Named α} {name : String} :
    m.get? name = none ↔ name ∉ m.entries.map (·.1) := by
  simp only [get?, List.lookup_eq_none_iff, bne_iff_ne, ne_eq, List.mem_map, not_exists, not_and]
  exact ⟨fun h e he heq => h e he heq.symm, fun h e he heq => h e he heq.symm⟩

theorem get?_eq_some_iff {m : Named α} {name : String} {v : α} :
    m.get? name = some v ↔ (name, v) ∈ m.entries := by
  have hmem {v : α} (h : m.get? name = some v) : (name, v) ∈ m.entries := by
    obtain ⟨l₁, l₂, hentries, -⟩ := List.lookup_eq_some_iff.1 h
    simp [hentries]
  refine ⟨hmem, fun h => ?_⟩
  cases hget : m.get? name with
  | none => exact absurd (List.mem_map_of_mem h) (get?_eq_none_iff.1 hget)
  | some w =>
    have heq : (name, w) = (name, v) := List.inj_on_of_nodup_map m.nodup_names (hmem hget) h rfl
    rw [(Prod.mk.inj heq).2]

/-! ## Mappings from lists -/

theorem insertNamed_perm {name : String} {value : α} {entries : List (String × α)}
    (h : name ∉ entries.map (·.1)) :
    (insertNamed name value entries).Perm ((name, value) :: entries) := by
  induction entries with
  | nil => rfl
  | cons e entries ih =>
    simp only [List.map_cons, List.mem_cons, not_or] at h
    unfold insertNamed
    split
    · rfl
    · rw [if_neg h.1]
      exact ((ih h.2).cons e).trans (.swap _ _ _)

theorem perm_foldl_insert {pairs : List (String × α)} {m : Named α}
    (distinct : ((pairs ++ m.entries).map (·.1)).Nodup) :
    (pairs.foldl (fun m pair => m.insert pair.1 pair.2) m).entries.Perm (pairs ++ m.entries) := by
  induction pairs generalizing m with
  | nil => rfl
  | cons pair pairs ih =>
    have hnew : pair.1 ∉ m.entries.map (·.1) := by
      simp only [List.cons_append, List.map_cons, List.map_append, List.nodup_cons, List.mem_append,
        not_or] at distinct
      exact distinct.1.2
    have hinsert : (pairs ++ (m.insert pair.1 pair.2).entries).Perm (pair :: pairs ++ m.entries) :=
      ((insertNamed_perm hnew).append_left pairs).trans List.perm_middle
    exact (ih ((hinsert.map _).nodup_iff.2 distinct)).trans hinsert

/-- Under distinct names nothing is replaced. -/
theorem perm_ofList {pairs : List (String × α)} (distinct : (pairs.map (·.1)).Nodup) :
    (ofList pairs).entries.Perm pairs := by
  have h : (ofList pairs).entries.Perm (pairs ++ empty.entries) :=
    perm_foldl_insert (by simpa [empty] using distinct)
  simpa [empty] using h

theorem mem_of_mem_ofList {pairs : List (String × α)} {e : String × α}
    (h : e ∈ (ofList pairs).entries) : e ∈ pairs := by
  have hfold (pairs : List (String × α)) (m : Named α)
      (h : e ∈ (pairs.foldl (fun m pair => m.insert pair.1 pair.2) m).entries) :
      e ∈ pairs ∨ e ∈ m.entries := by
    induction pairs generalizing m with
    | nil => exact .inr h
    | cons pair pairs ih =>
      rcases ih _ h with h | h
      · exact .inl (List.mem_cons_of_mem _ h)
      · rcases mem_insertNamed h with rfl | h
        · exact .inl List.mem_cons_self
        · exact .inr h
  exact (hfold pairs empty h).resolve_right (by simp [empty])

theorem eq_of_entries_perm {m m' : Named α} (h : m.entries.Perm m'.entries) : m = m' :=
  Named.ext (m.ascending.eq_of_perm m'.ascending h)

/-- Every name with what stands under it on either side: first the names of the latest side, then
those of the baseline alone. -/
def facing (latest baseline : Named α) : List (String × Option α × Option α) :=
  (latest.entries.map fun (name, new) => (name, some new, baseline.get? name)) ++
    (baseline.without latest).map fun (name, old) => (name, none, some old)

theorem mem_facing_iff {latest baseline : Named α} {name : String} {new old : Option α} :
    (name, new, old) ∈ latest.facing baseline ↔
      latest.get? name = new ∧ baseline.get? name = old ∧ (new.isSome ∨ old.isSome) := by
  constructor
  · intro h
    rcases List.mem_append.1 h with h | h
    · obtain ⟨⟨_, v⟩, he, heq⟩ := List.mem_map.1 h
      obtain ⟨rfl, rfl, rfl⟩ := Prod.mk.inj heq |>.imp id Prod.mk.inj
      exact ⟨get?_eq_some_iff.2 he, rfl, .inl rfl⟩
    · obtain ⟨⟨_, v⟩, he, heq⟩ := List.mem_map.1 h
      obtain ⟨rfl, rfl, rfl⟩ := Prod.mk.inj heq |>.imp id Prod.mk.inj
      obtain ⟨he, hnone⟩ := List.mem_filter.1 he
      exact ⟨by simpa using hnone, get?_eq_some_iff.2 he, .inr rfl⟩
  · rintro ⟨hnew, hold, hsome⟩
    cases new with
    | some v =>
      have he : (name, v) ∈ latest.entries := get?_eq_some_iff.1 hnew
      exact List.mem_append_left _ (List.mem_map.2 ⟨_, he, by rw [← hold]⟩)
    | none =>
      obtain ⟨v, rfl⟩ : ∃ v, old = some v := by simpa [Option.isSome_iff_exists] using hsome
      have he : (name, v) ∈ baseline.without latest :=
        List.mem_filter.2 ⟨get?_eq_some_iff.1 hold, by simp [hnew]⟩
      exact List.mem_append_right _ (List.mem_map.2 ⟨_, he, rfl⟩)

theorem mem_facing {latest baseline : Named α} {name : String} {new old : Option α}
    (h : (name, new, old) ∈ latest.facing baseline) :
    (∀ v, new = some v → (name, v) ∈ latest.entries) ∧
      (∀ v, old = some v → (name, v) ∈ baseline.entries) ∧ (new.isSome ∨ old.isSome) := by
  obtain ⟨hnew, hold, hsome⟩ := mem_facing_iff.1 h
  exact ⟨fun v hv => get?_eq_some_iff.1 (hnew.trans hv),
    fun v hv => get?_eq_some_iff.1 (hold.trans hv), hsome⟩

theorem nodup_facing (latest baseline : Named α) :
    ((latest.facing baseline).map (·.1)).Nodup := by
  rw [facing, List.map_append, List.map_map, List.map_map]
  refine List.nodup_append.2 ⟨latest.nodup_names, ?_, ?_⟩
  · exact baseline.nodup_names.sublist (List.filter_sublist.map _)
  · rintro name hlatest _ hbaseline rfl
    obtain ⟨e, he, rfl⟩ := List.mem_map.1 hbaseline
    have hnone : latest.get? e.1 = none := by simpa using (List.mem_filter.1 he).2
    exact get?_eq_none_iff.1 hnone hlatest

/-- A name with the values under it exchanged. -/
def exchanged {β : Type} (e : String × β × β) : String × β × β := (e.1, e.2.2, e.2.1)

/-- Whichever side comes first, the same values face each other. -/
theorem facing_perm_exchanged (latest baseline : Named α) :
    (baseline.facing latest).Perm ((latest.facing baseline).map exchanged) := by
  have hnames : ((latest.facing baseline).map exchanged).map (·.1) =
      (latest.facing baseline).map (·.1) := by
    rw [List.map_map]
    rfl
  apply (List.perm_ext_iff_of_nodup ((nodup_facing _ _).of_map _)
    ((hnames ▸ nodup_facing latest baseline).of_map _)).2
  rintro ⟨name, old, new⟩
  have hmap : (name, old, new) ∈ (latest.facing baseline).map exchanged ↔
      (name, new, old) ∈ latest.facing baseline := by
    simp only [List.mem_map, exchanged, Prod.mk.injEq, Prod.exists]
    exact ⟨fun ⟨_, _, _, h, hname, hold, hnew⟩ => hname ▸ hold ▸ hnew ▸ h,
      fun h => ⟨name, new, old, h, rfl, rfl, rfl⟩⟩
  rw [hmap, mem_facing_iff, mem_facing_iff]
  exact ⟨fun ⟨hold, hnew, hsome⟩ => ⟨hnew, hold, hsome.symm⟩,
    fun ⟨hnew, hold, hsome⟩ => ⟨hold, hnew, hsome.symm⟩⟩

/-- The names that both mappings have, with the values under them. -/
def common (latest baseline : Named α) : List (String × α × α) :=
  latest.entries.filterMap fun (name, new) => (baseline.get? name).map fun old => (name, new, old)

theorem mem_common_iff {latest baseline : Named α} {name : String} {new old : α} :
    (name, new, old) ∈ latest.common baseline ↔
      (name, new) ∈ latest.entries ∧ (name, old) ∈ baseline.entries := by
  simp only [common, List.mem_filterMap, Option.map_eq_some_iff, get?_eq_some_iff]
  constructor
  · rintro ⟨⟨name, new⟩, hnew, old, hold, heq⟩
    obtain ⟨rfl, rfl, rfl⟩ := Prod.mk.inj heq |>.imp id Prod.mk.inj
    exact ⟨hnew, hold⟩
  · exact fun ⟨hnew, hold⟩ => ⟨(name, new), hnew, old, hold, rfl⟩

theorem ascending_common (latest baseline : Named α) : Ascending (latest.common baseline) := by
  refine List.pairwise_filterMap.2 (latest.ascending.imp ?_)
  intro e e' hlt b hb b' hb'
  obtain ⟨_, -, rfl⟩ := Option.map_eq_some_iff.1 hb
  obtain ⟨_, -, rfl⟩ := Option.map_eq_some_iff.1 hb'
  exact hlt

theorem common_exchanged (latest baseline : Named α) :
    baseline.common latest = (latest.common baseline).map exchanged := by
  have hascending : Ascending ((latest.common baseline).map exchanged) :=
    List.pairwise_map.2 (ascending_common latest baseline)
  refine (ascending_common baseline latest).eq_of_perm hascending ?_
  apply (List.perm_ext_iff_of_nodup ((ascending_common _ _).nodup_names.of_map _)
    (hascending.nodup_names.of_map _)).2
  rintro ⟨name, old, new⟩
  simp only [List.mem_map, exchanged, Prod.mk.injEq, Prod.exists, mem_common_iff]
  constructor
  · exact fun ⟨hold, hnew⟩ => ⟨name, new, old, ⟨hnew, hold⟩, rfl, rfl, rfl⟩
  · rintro ⟨_, _, _, ⟨hnew, hold⟩, rfl, rfl, rfl⟩
    exact ⟨hold, hnew⟩

/-- What only happens where both sides have a value happens along the common names. -/
theorem flatMap_facing_common {β : Type} {f : String × Option α × Option α → List β}
    (hnew : ∀ name new, f (name, some new, none) = [])
    (hold : ∀ name old, f (name, none, some old) = []) (latest baseline : Named α) :
    (latest.facing baseline).flatMap f =
      (latest.common baseline).flatMap fun e => f (e.1, some e.2.1, some e.2.2) := by
  have hbaseline : ((baseline.without latest).map fun e => (e.1, none, some e.2)).flatMap f = [] := by
    simp [List.flatMap_map, hold]
  rw [facing, List.flatMap_append, hbaseline, List.append_nil, List.flatMap_map, common,
    List.filterMap_eq_flatMap_toList, List.flatMap_assoc]
  apply List.flatMap_congr
  rintro ⟨name, new⟩ _
  dsimp only
  cases baseline.get? name with
  | none => exact hnew name new
  | some old => simp

/-- The values under the names that both mappings have. -/
def shared (latest baseline : Named α) : List (α × α) :=
  latest.entries.flatMap fun (name, new) => (baseline.get? name).toList.map fun old => (new, old)

theorem mem_shared {latest baseline : Named α} {new old : α}
    (h : (new, old) ∈ latest.shared baseline) :
    ∃ name, (name, new) ∈ latest.entries ∧ (name, old) ∈ baseline.entries := by
  obtain ⟨⟨name, _⟩, he, h⟩ := List.mem_flatMap.1 h
  obtain ⟨_, hold, heq⟩ := List.mem_map.1 h
  obtain ⟨rfl, rfl⟩ := Prod.mk.inj heq
  exact ⟨name, he, get?_eq_some_iff.1 (Option.mem_toList.1 hold)⟩

theorem eq_of_mem_shared_self {m : Named α} {new old : α} (h : (new, old) ∈ m.shared m) :
    new = old := by
  obtain ⟨name, hnew, hold⟩ := mem_shared h
  exact (Prod.mk.inj (List.inj_on_of_nodup_map m.nodup_names hnew hold rfl)).2

theorem shared_eq_common (latest baseline : Named α) :
    latest.shared baseline = (latest.common baseline).map (·.2) := by
  rw [shared, common, List.map_filterMap, List.filterMap_eq_flatMap_toList]
  apply List.flatMap_congr
  rintro ⟨name, new⟩ _
  dsimp only
  cases baseline.get? name <;> rfl

/-- What only happens where both sides have a value happens along the shared values. -/
theorem flatMap_facing {β : Type} {f : String × Option α × Option α → List β} {g : α × α → List β}
    (hboth : ∀ name new old, f (name, some new, some old) = g (new, old))
    (hnew : ∀ name new, f (name, some new, none) = [])
    (hold : ∀ name old, f (name, none, some old) = []) (latest baseline : Named α) :
    (latest.facing baseline).flatMap f = (latest.shared baseline).flatMap g := by
  rw [flatMap_facing_common hnew hold, shared_eq_common, List.flatMap_map]
  exact List.flatMap_congr fun e _ => hboth e.1 e.2.1 e.2.2

end Named
end WorkloadDrift
