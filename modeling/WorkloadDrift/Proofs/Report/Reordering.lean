import Mathlib.Data.List.Perm.Basic
import WorkloadDrift.Proofs.Report.Conservation

/-!
# Reordered events

Each value has one partner on either side. When a snapshot only has its events
in another order, all its changes cancel unless some value newly stands at two
places.
-/
namespace WorkloadDrift

/-- The same names with related values. -/
def Named.Related {α : Type} (r : α → α → Prop) (m m' : Named α) : Prop :=
  List.Forall₂ (fun e e' => e.1 = e'.1 ∧ r e.2 e'.2) m.entries m'.entries

structure EventLists.Reordered (e e' : EventLists) : Prop where
  file : e.file.Perm e'.file
  process : e.process.Perm e'.process
  ingress : e.ingress.Perm e'.ingress
  egress : e.egress.Perm e'.egress
  bind : e.bind.Perm e'.bind

structure Resource.Reordered (r r' : Resource) : Prop where
  labels : r.labels = r'.labels
  events : r.events.Reordered r'.events

def Namespace.Reordered (n n' : Namespace) : Prop :=
  ∀ kind ∈ ResourceKind.all, (n.ofKind kind).Related Resource.Reordered (n'.ofKind kind)

def Cluster.Reordered (c c' : Cluster) : Prop :=
  c.namespaces.Related Namespace.Reordered c'.namespaces

/-- The same names and labels, and in each list the same entries in some order. -/
def Workload.Reordered (w w' : Workload) : Prop :=
  w.clusters.Related Cluster.Reordered w'.clusters

def Workload.resources (w : Workload) : List Resource :=
  w.clusters.values.flatMap fun c => c.namespaces.values.flatMap fun n =>
    ResourceKind.all.flatMap fun kind => (n.ofKind kind).values

/-- No list of events has an empty entry. -/
def Resource.Full (r : Resource) : Prop := ∀ category ∈ EventCategory.all, none ∉ r.events.get category

def Workload.Full (w : Workload) : Prop := ∀ r ∈ w.resources, r.Full

/-- The values that newly stand in a field, at the positions at which the field has another value. -/
def Workload.arrivals (latest baseline : Workload) : List String :=
  (latest.edits baseline).flatMap fun e => present e.new

theorem exists_of_forall₂ {α β : Type} {r : α → β → Prop} {l : List α} {l' : List β}
    (h : List.Forall₂ r l l') {a : α} (ha : a ∈ l) : ∃ b ∈ l', r a b := by
  induction h with
  | nil => simp at ha
  | cons hab _ ih =>
    rcases List.mem_cons.1 ha with rfl | ha
    · exact ⟨_, by simp, hab⟩
    · obtain ⟨b, hb, hr⟩ := ih ha
      exact ⟨b, by simp [hb], hr⟩

theorem Named.Related.of_mem_shared {α : Type} {r : α → α → Prop} {m m' : Named α}
    (h : m.Related r m') {new old : α} (hpair : (new, old) ∈ m.shared m') :
    r new old ∧ old ∈ m'.values := by
  obtain ⟨name, hnew, hold⟩ := mem_shared hpair
  refine ⟨?_, List.mem_map.2 ⟨_, hold, rfl⟩⟩
  obtain ⟨e', he', hname, hrel⟩ := exists_of_forall₂ h hnew
  have heq : e' = (name, old) := List.inj_on_of_nodup_map m'.nodup_names he' hold hname.symm
  rwa [heq] at hrel

/-- The resources of reordered snapshots face each other reordered. -/
theorem Workload.Reordered.of_mem_shared {latest baseline : Workload}
    (h : latest.Reordered baseline) {new old : Resource}
    (hpair : (new, old) ∈ latest.sharedResources baseline) :
    new.Reordered old ∧ old ∈ baseline.resources := by
  obtain ⟨⟨c, c'⟩, hc, hpair⟩ := List.mem_flatMap.1 hpair
  obtain ⟨⟨n, n'⟩, hn, hpair⟩ := List.mem_flatMap.1 hpair
  obtain ⟨kind, hkind, hpair⟩ := List.mem_flatMap.1 hpair
  obtain ⟨hcluster, hcmem⟩ := Named.Related.of_mem_shared h hc
  obtain ⟨hnamespace, hnmem⟩ := Named.Related.of_mem_shared hcluster hn
  obtain ⟨hresource, hrmem⟩ := Named.Related.of_mem_shared (hnamespace kind hkind) hpair
  exact ⟨hresource, List.mem_flatMap.2 ⟨c', hcmem, List.mem_flatMap.2
    ⟨n', hnmem, List.mem_flatMap.2 ⟨kind, hkind, hrmem⟩⟩⟩⟩

namespace Resource.Reordered

variable {latest baseline : Resource}

theorem perm (h : latest.Reordered baseline) (category : EventCategory) :
    (latest.events.get category).Perm (baseline.events.get category) := by
  obtain ⟨-, hfile, hprocess, hingress, hegress, hbind⟩ := h
  cases category
  · exact hfile.map _
  · exact hprocess.map _
  · exact hingress.map _
  · exact hegress.map _
  · exact hbind.map _

theorem perm_values (h : latest.Reordered baseline) :
    latest.comparedValues.Perm baseline.comparedValues :=
  List.Perm.flatMap_left _ fun category _ => (h.perm category).flatMap_right _

theorem aligned (h : latest.Reordered baseline) (full : baseline.Full) : latest.Aligned baseline := by
  intro category hcategory pair hpair
  obtain ⟨hnew, hold⟩ := List.of_mem_zip hpair
  have hsome {e : Option Event} (he : e ∈ baseline.events.get category) : e.isSome := by
    cases e with
    | none => exact absurd he (full category hcategory)
    | some _ => rfl
  rw [hsome hold, hsome ((h.perm category).mem_iff.1 hnew)]

end Resource.Reordered

theorem new_ne_old {latest baseline : Workload} {e : FieldEdit} (he : e ∈ latest.edits baseline) :
    e.new ≠ e.old := by
  obtain ⟨pair, -, he⟩ := List.mem_flatMap.1 he
  obtain ⟨category, -, he⟩ := List.mem_flatMap.1 he
  obtain ⟨sides, -, he⟩ := List.mem_flatMap.1 he
  obtain ⟨field, -, he⟩ := List.mem_filterMap.1 he
  unfold fieldEdit? at he
  split at he
  · simp at he
  · next hne =>
    obtain rfl := Option.some.inj he
    exact hne

theorem flatMap_present (l : List String) : l.flatMap present = l.filter (· ≠ "") := by
  induction l with
  | nil => rfl
  | cons v l ih => by_cases hv : v = "" <;> simp [present, hv, ih]

variable {digest : Digest} {latest baseline : Workload}

/-- In a reordered snapshot the values that come are those that go. -/
theorem Workload.Reordered.perm_edits (h : latest.Reordered baseline) (full : baseline.Full) :
    (latest.arrivals baseline).Perm ((latest.edits baseline).flatMap fun e => present e.old) := by
  have harrivals : latest.arrivals baseline = ((latest.edits baseline).map (·.new)).filter (· ≠ "") := by
    rw [← flatMap_present, List.flatMap_map]
    rfl
  have hdepartures : ((latest.edits baseline).flatMap fun e => present e.old) =
      ((latest.edits baseline).map (·.old)).filter (· ≠ "") := by
    rw [← flatMap_present, List.flatMap_map]
  rw [harrivals, hdepartures]
  apply perm_filter_ne_empty
  intro v hv
  have hbalance : Balanced v (latest.edits baseline) _ _ := Workload.balanced
    (fun pair hpair => (h.of_mem_shared hpair).1.aligned (full _ (h.of_mem_shared hpair).2)) hv
  have hvalues : (latest.sharedResources baseline).flatMap (fun pair => pair.1.comparedValues) |>.Perm
      ((latest.sharedResources baseline).flatMap fun pair => pair.2.comparedValues) :=
    List.Perm.flatMap_left _ fun pair hpair => (h.of_mem_shared hpair).1.perm_values
  rw [Balanced, hvalues.count_eq v] at hbalance
  omega

/-- Cancellation leaves nothing of a reordered snapshot exactly when no value newly stands at two
places. -/
theorem Report.activeLeaves_eq_nil_iff (hex : digest.Hexadecimal) (h : latest.Reordered baseline)
    (full : baseline.Full) (distinct : ((latest.outline baseline).texts digest).Nodup)
    (separates : digest.Separates (latest.digested digest baseline)) :
    (build digest latest baseline none).activeLeaves = [] ↔ (latest.arrivals baseline).Nodup := by
  obtain ⟨hhashes, hfresh, hshows⟩ := found_spec hex distinct separates
  have harrivals : (found digest latest baseline).flatMap (·.change.insert) =
      latest.arrivals baseline := hshows.flatMap_insert
  have hinsert : ∀ n ∈ found digest latest baseline, n.change.insert.Nodup := by
    intro n hn
    obtain ⟨e, -, hinsert, -⟩ := hshows.exists_edit hn
    rw [hinsert, present]
    split <;> simp
  have hvalue : ∀ n ∈ found digest latest baseline,
      (n.change.insert.isEmpty && n.change.remove.isEmpty) = false := by
    intro n hn
    obtain ⟨e, he, hinsert, hremove⟩ := hshows.exists_edit hn
    have hne := new_ne_old he
    rw [hinsert, hremove, present, present]
    by_cases hnew : e.new = "" <;> by_cases hold : e.old = "" <;> simp_all
  have hperm : ((found digest latest baseline).flatMap (·.change.insert)).Perm
      ((found digest latest baseline).flatMap (·.change.remove)) := by
    rw [harrivals, hshows.flatMap_remove]
    exact h.perm_edits full
  rw [activeLeaves_build hfresh, List.filter_eq_nil_iff, ← harrivals,
    ← Cancellation.forall_mem_matched_iff hhashes hinsert hvalue hperm]
  simp

/-- The changes of a reordered snapshot all cancel exactly when no value newly stands at two
places. -/
theorem reordered_cancels_iff (hex : digest.Hexadecimal) (h : latest.Reordered baseline)
    (full : baseline.Full) (distinct : ((latest.outline baseline).texts digest).Nodup)
    (separates : digest.Separates (latest.digested digest baseline)) :
    let r := Report.build digest latest baseline none
    ((∀ n ∈ r.leaves, n.change.canceled = true) ↔ (latest.arrivals baseline).Nodup) ∧
      (r.hasDrift = false ↔ (latest.arrivals baseline).Nodup) := by
  intro r
  have hactive : r.activeLeaves = [] ↔ (latest.arrivals baseline).Nodup :=
    Report.activeLeaves_eq_nil_iff hex h full distinct separates
  refine ⟨?_, Report.hasDrift_build.trans hactive⟩
  rw [← hactive, Report.activeLeaves, List.filter_eq_nil_iff]
  simp

theorem Workload.reordered_running {r r' : Resource} (h : r.Reordered r') :
    (Workload.running r).Reordered (.running r') := by
  refine .cons ⟨rfl, .cons ⟨rfl, fun kind _ => ?_⟩ .nil⟩ .nil
  cases kind
  case deployment => exact .cons ⟨rfl, h⟩ .nil
  all_goals exact .nil

theorem Resource.reordered_accessing {file file' : List (Option FileEvent)} (h : file.Perm file') :
    (Resource.accessing file).Reordered (.accessing file') := ⟨rfl, h, .nil, .nil, .nil, .nil⟩

instance : DecidablePred Resource.Full := fun r =>
  inferInstanceAs (Decidable (∀ category ∈ EventCategory.all, none ∉ r.events.get category))

instance : DecidablePred Workload.Full := fun w =>
  inferInstanceAs (Decidable (∀ r ∈ w.resources, r.Full))

/-- Three accesses that go round leave no drift. -/
theorem reordered_cancels_iff_rotated :
    let latest := Workload.running (.accessing
      [some (.copying "c" "z"), some (.copying "a" "x"), some (.copying "b" "y")])
    let baseline := Workload.running (.accessing
      [some (.copying "a" "x"), some (.copying "b" "y"), some (.copying "c" "z")])
    latest.Reordered baseline ∧ latest ≠ baseline ∧
      (∀ n ∈ (Report.build .spelled latest baseline none).leaves, n.change.canceled = true) ∧
      (Report.build .spelled latest baseline none).hasDrift = false := by
  intro latest baseline
  have hreordered : latest.Reordered baseline :=
    Workload.reordered_running (Resource.reordered_accessing (by decide))
  obtain ⟨hcanceled, hdrift⟩ := @reordered_cancels_iff .spelled latest baseline
    Digest.hexadecimal_spelled hreordered (by decide)
    (Workload.nodup_texts Digest.hexadecimal_spelled (by decide) (by decide))
    (Digest.separates_spelled _)
  exact ⟨hreordered, by decide, hcanceled.2 (by decide), hdrift.2 (by decide)⟩

/-- Two accesses that change places, each reading what the other one writes: either value newly
stands at two places, and the drift stays under any digest without collisions. -/
theorem reordered_keepsDrift_swapped :
    let latest := Workload.running (.accessing [some (.copying "x" "y"), some (.copying "y" "x")])
    let baseline := Workload.running (.accessing [some (.copying "y" "x"), some (.copying "x" "y")])
    latest.Reordered baseline ∧ baseline.Full ∧
      (∀ digest : Digest, digest.Hexadecimal → digest.Separates (latest.digested digest baseline) →
        (Report.build digest latest baseline none).hasDrift = true) ∧
      (Report.build .spelled latest baseline none).hasDrift = true := by
  intro latest baseline
  have hreordered : latest.Reordered baseline :=
    Workload.reordered_running (Resource.reordered_accessing (by decide))
  have hdrift (digest : Digest) (hex : digest.Hexadecimal)
      (separates : digest.Separates (latest.digested digest baseline)) :
      (Report.build digest latest baseline none).hasDrift = true := by
    have hactive := Report.activeLeaves_eq_nil_iff hex hreordered (by decide)
      (Workload.nodup_texts hex (by decide) (by decide)) separates
    by_contra hnone
    have hnodup := hactive.1 (Report.hasDrift_build.1 (by simpa using hnone))
    exact absurd hnodup (by decide)
  exact ⟨hreordered, by decide, hdrift,
    hdrift .spelled Digest.hexadecimal_spelled (Digest.separates_spelled _)⟩

end WorkloadDrift
