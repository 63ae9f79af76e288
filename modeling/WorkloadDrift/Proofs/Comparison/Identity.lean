import WorkloadDrift.Proofs.Digest
import WorkloadDrift.Proofs.Comparison.Outline

/-!
# Identities of changes

A change is known by the digest of one text with its place, its kind and its
content. A place is a path of names between slashes, so as long as no name holds
a slash the text can be read from its start, and no two changes share one.
-/
namespace WorkloadDrift

def PlainName (name : String) : Prop := '/' ∉ name.toList

instance (name : String) : Decidable (PlainName name) :=
  inferInstanceAs (Decidable ('/' ∉ name.toList))

def Named.PlainNames {α : Type} (inside : α → Prop) (m : Named α) : Prop :=
  ∀ e ∈ m.entries, PlainName e.1 ∧ inside e.2

def Namespace.PlainNames (n : Namespace) : Prop :=
  ∀ kind ∈ ResourceKind.all, (n.ofKind kind).PlainNames fun _ => True

def Cluster.PlainNames (c : Cluster) : Prop := c.namespaces.PlainNames Namespace.PlainNames

/-- No name of a cluster, a namespace or a resource holds a slash. -/
def Workload.PlainNames (w : Workload) : Prop := w.clusters.PlainNames Cluster.PlainNames

instance {α : Type} (inside : α → Prop) [DecidablePred inside] (m : Named α) :
    Decidable (m.PlainNames inside) :=
  inferInstanceAs (Decidable (∀ e ∈ m.entries, PlainName e.1 ∧ inside e.2))

instance : DecidablePred Namespace.PlainNames := fun n =>
  inferInstanceAs (Decidable (∀ kind ∈ ResourceKind.all, (n.ofKind kind).PlainNames fun _ => True))

instance : DecidablePred Cluster.PlainNames := fun c =>
  inferInstanceAs (Decidable (c.namespaces.PlainNames Namespace.PlainNames))

instance : DecidablePred Workload.PlainNames := fun w =>
  inferInstanceAs (Decidable (w.clusters.PlainNames Cluster.PlainNames))

theorem append_cons_inj {c : Char} {a b r s : List Char} (ha : c ∉ a) (hb : c ∉ b)
    (h : a ++ c :: r = b ++ c :: s) : a = b ∧ r = s := by
  induction a generalizing b with
  | nil =>
    cases b with
    | nil => exact ⟨rfl, (List.cons.inj h).2⟩
    | cons d b => exact absurd (List.cons.inj h).1 (List.ne_of_not_mem_cons hb)
  | cons d a ih =>
    cases b with
    | nil => exact absurd (List.cons.inj h).1.symm (List.ne_of_not_mem_cons ha)
    | cons e b =>
      obtain ⟨rfl, htail⟩ := List.cons.inj h
      obtain ⟨rfl, rfl⟩ := ih (List.not_mem_of_not_mem_cons ha) (List.not_mem_of_not_mem_cons hb) htail
      exact ⟨rfl, rfl⟩

/-- What stands behind a name in the text of a change: the path goes on, or kind and digest end the
text. -/
inductive Continuation : List Char → Prop
  | further (rest : List Char) : Continuation ('/' :: rest)
  | last {kind hash : List Char} : '/' ∉ kind → ':' ∉ kind → '/' ∉ hash → ':' ∉ hash →
      Continuation (':' :: (kind ++ ':' :: hash))

theorem Continuation.name_inj {a b r s : List Char} (ha : '/' ∉ a) (hb : '/' ∉ b)
    (hr : Continuation r) (hs : Continuation s) (h : a ++ r = b ++ s) : a = b ∧ r = s := by
  cases hr with
  | further r =>
    cases hs with
    | further s =>
      obtain ⟨rfl, rfl⟩ := append_cons_inj ha hb h
      exact ⟨rfl, rfl⟩
    | last hkind _ hhash _ =>
      have hslash := congrArg ('/' ∈ ·) h
      simp [hb, hkind, hhash] at hslash
  | @last kind hash hkind hkind' hhash hhash' =>
    cases hs with
    | further s =>
      have hslash := congrArg ('/' ∈ ·) h
      simp [ha, hkind, hhash] at hslash
    | @last kind₂ hash₂ _ hkind₂ _ hhash₂ =>
      -- From the end the text has the digest first, then the kind.
      have hrev := congrArg List.reverse h
      simp only [List.reverse_append, List.reverse_cons, List.append_assoc, List.nil_append,
        List.cons_append] at hrev
      obtain ⟨hhashes, hrest⟩ := append_cons_inj (by simpa using hhash') (by simpa using hhash₂) hrev
      obtain ⟨hkinds, hnames⟩ := append_cons_inj (by simpa using hkind') (by simpa using hkind₂) hrest
      rw [List.reverse_injective hhashes, List.reverse_injective hkinds,
        List.reverse_injective hnames]
      exact ⟨rfl, rfl⟩

def Within (scope text : String) : Prop := ∃ r, Continuation r ∧ text.toList = scope.toList ++ r

def Below (scope text : String) : Prop := ∃ r, text.toList = scope.toList ++ '/' :: r

theorem Below.within {scope text : String} (h : Below scope text) : Within scope text := by
  obtain ⟨r, h⟩ := h
  exact ⟨_, .further r, h⟩

theorem Within.below {scope segment text : String} (h : Within (scope ++ "/" ++ segment) text) :
    Below scope text := by
  obtain ⟨r, -, h⟩ := h
  exact ⟨segment.toList ++ r, by simp [h]⟩

theorem Within.name_inj {scope name name' text : String} (hplain : PlainName name)
    (hplain' : PlainName name') (h : Within (scope ++ name) text)
    (h' : Within (scope ++ name') text) : name = name' := by
  obtain ⟨r, hr, h⟩ := h
  obtain ⟨s, hs, h'⟩ := h'
  rw [h', String.toList_append, String.toList_append, List.append_assoc, List.append_assoc,
    List.append_cancel_left_eq] at h
  exact (String.toList_inj.1 (Continuation.name_inj hplain' hplain hs hr h).1).symm

/-- Texts that go on under a path, each of them once. -/
structure Identified (scope : String) (texts : List String) : Prop where
  nodup : texts.Nodup
  below : ∀ t ∈ texts, Below scope t

theorem Identified.flatMap {β : Type} {l : List β} {texts : β → List String} {scope : String}
    (key : β → String) (segment : String) (hkeys : (l.map key).Nodup) (hplain : ∀ b ∈ l, PlainName (key b))
    (hwithin : ∀ b ∈ l, ∀ t ∈ texts b, Within (scope ++ "/" ++ segment ++ key b) t)
    (hnodup : ∀ b ∈ l, (texts b).Nodup) : Identified scope (l.flatMap texts) where
  nodup := by
    refine List.nodup_flatMap.2 ⟨hnodup, ?_⟩
    refine (List.pairwise_map.1 hkeys).imp_of_mem fun {b b'} hb hb' hne t ht ht' => hne ?_
    exact Within.name_inj (hplain b hb) (hplain b' hb') (hwithin b hb t ht) (hwithin b' hb' t ht')
  below t ht := by
    obtain ⟨b, hb, ht⟩ := List.mem_flatMap.1 ht
    have hpath : Within (scope ++ "/" ++ (segment ++ key b)) t := by
      rw [← String.append_assoc]
      exact hwithin b hb t ht
    exact hpath.below

namespace Named

variable {α : Type}

theorem PlainNames.of_mem_facing {latest baseline : Named α} {inside : α → Prop}
    (hlatest : latest.PlainNames inside) (hbaseline : baseline.PlainNames inside)
    {e : String × Option α × Option α} (h : e ∈ latest.facing baseline) :
    PlainName e.1 ∧ (∀ v, e.2.1 = some v → inside v) ∧ ∀ v, e.2.2 = some v → inside v := by
  obtain ⟨name, new, old⟩ := e
  obtain ⟨hnew, hold, hside⟩ := mem_facing h
  refine ⟨?_, fun v hv => (hlatest _ (hnew v hv)).2, fun v hv => (hbaseline _ (hold v hv)).2⟩
  rcases hside with hside | hside
  · obtain ⟨v, hv⟩ := Option.isSome_iff_exists.1 hside
    exact (hlatest _ (hnew v hv)).1
  · obtain ⟨v, hv⟩ := Option.isSome_iff_exists.1 hside
    exact (hbaseline _ (hold v hv)).1

end Named

variable {digest : Digest}

def Forest.texts (digest : Digest) (f : Forest Drift) : List String := f.entries.map (Drift.text digest)

theorem PartSite.within_drift {α : Type} (hex : digest.Hexadecimal) (s : PartSite α) (name : String)
    (how : PartChange) (value : α) : Within (s.pathOf name) ((s.drift name how value).text digest) := by
  have hkind : '/' ∉ how.kind.toList ∧ ':' ∉ how.kind.toList := by cases how <;> decide
  have hhash {c : Char} (hc : Hex.value? c = none) : c ∉ (digest.value (s.encode value)).toList :=
    hex.not_mem hc _
  refine ⟨_, .last hkind.1 hkind.2 (hhash (by decide)) (hhash (by decide)), ?_⟩
  simp [PartSite.drift, Drift.text, changeText]

theorem PartSite.not_below_drift {α : Type} (s : PartSite α) (name : String) (how : PartChange) (value : α) :
    ¬ Below (s.pathOf name) ((s.drift name how value).text digest) := by
  rintro ⟨r, h⟩
  simp [PartSite.drift, Drift.text, changeText] at h

theorem PartSite.identified {α : Type} [DecidableEq α] (hex : digest.Hexadecimal) {s : PartSite α}
    {scope segment : String} (hpath : ∀ name, s.pathOf name = scope ++ "/" ++ segment ++ name)
    {latest baseline : Named α} (plain : ∀ e ∈ latest.facing baseline, PlainName e.1)
    {inside : α → α → String → Forest Drift}
    (hinside : ∀ name new old, (name, some new, some old) ∈ latest.facing baseline →
      Identified (s.pathOf name) ((inside new old (s.pathOf name)).texts digest)) :
    Identified scope ((s.outline inside latest baseline).texts digest) := by
  have hentry : ∀ e ∈ latest.facing baseline,
      (∀ t ∈ (s.outlineAt inside e).texts digest, Within (s.pathOf e.1) t) ∧
        ((s.outlineAt inside e).texts digest).Nodup := by
    rintro ⟨name, _ | new, _ | old⟩ he
    · simp [PartSite.outlineAt, Forest.texts, Forest.entries]
    · simpa [PartSite.outlineAt, Forest.texts] using s.within_drift hex name .removed old
    · simpa [PartSite.outlineAt, Forest.texts] using s.within_drift hex name .inserted new
    · by_cases heq : new = old
      · simp [PartSite.outlineAt, Forest.texts, heq, Forest.entries]
      · have hbelow := hinside name new old he
        have htexts : (s.outlineAt inside (name, some new, some old)).texts digest =
            (s.drift name .changed new).text digest ::
              (inside new old (s.pathOf name)).texts digest := by
          simp [PartSite.outlineAt, Forest.texts, heq, Forest.entries]
        rw [htexts, List.forall_mem_cons, List.nodup_cons]
        exact ⟨⟨s.within_drift hex name .changed new, fun t ht => (hbelow.below t ht).within⟩,
          fun hmem => s.not_below_drift name .changed new (hbelow.below _ hmem), hbelow.nodup⟩
  rw [Forest.texts, PartSite.outline, Forest.entries_flatMap, List.map_flatMap]
  refine .flatMap (·.1) segment (latest.nodup_facing baseline) plain (fun e he => ?_)
    fun e he => (hentry e he).2
  rw [← hpath]
  exact (hentry e he).1

def FieldDrift.text (f : FieldDrift) : String := changeText f.scope f.kind f.content

theorem toList_toString (n : Nat) : (toString n).toList = Nat.toDigits 10 n := String.toList_ofList

theorem toString_injective : Function.Injective (toString : Nat → String) := fun m n h => by
  have hdigits := congrArg String.toList h
  rw [toList_toString, toList_toString] at hdigits
  rw [← Nat.ofDigitChars_ten_toDigits (n := m), hdigits, Nat.ofDigitChars_ten_toDigits]

theorem append_slash (scope segment name : String) :
    scope ++ "/" ++ segment ++ name = scope ++ ("/" ++ segment) ++ name := by
  rw [@String.append_assoc scope]

theorem FieldDrift.toList_text (f : FieldDrift) :
    f.text.toList = f.scope.toList ++ ':' :: (f.kind.toList ++ ':' :: f.content.toList) := by
  simp [text, changeText]

theorem EventCategory.comparedFields_plain (category : EventCategory) :
    category.comparedFields.Nodup ∧ ∀ field ∈ category.comparedFields, ':' ∉ field.toList := by
  cases category <;> decide

theorem identified_fieldDrifts (category : EventCategory) (path : String)
    (latest baseline : List (Option Event)) :
    Identified path ((fieldDrifts category path latest baseline).map FieldDrift.text) := by
  obtain ⟨hfields, hcolon⟩ := category.comparedFields_plain
  rw [fieldDrifts, List.map_flatMap]
  refine .flatMap (fun e => toString e.2) "" ?_ (fun e _ => ?_)
    (fun e _ t ht => ?_) fun e _ => ?_
  · have hindices : (List.range' 0 (faced latest baseline).length).Nodup := List.nodup_range'
    have htexts := hindices.map toString_injective
    rwa [← List.zipIdx_map_snd, List.map_map] at htexts
  · rw [PlainName, toList_toString]
    exact fun hmem => absurd (Nat.isDigit_of_mem_toDigits (by decide) (by decide) hmem) (by decide)
  · obtain ⟨f, hf, rfl⟩ := List.mem_map.1 ht
    obtain ⟨field, -, hf⟩ := List.mem_filterMap.1 hf
    obtain ⟨-, hscope, -⟩ := fieldDrift?_eq_some hf
    refine ⟨_, .further (field.toList ++ ':' :: (f.kind.toList ++ ':' :: f.content.toList)), ?_⟩
    simp [FieldDrift.toList_text, hscope]
  · rw [List.map_filterMap]
    refine List.pairwise_filterMap.2 (hfields.imp_of_mem fun {field field'} hmem hmem' hne => ?_)
    intro t ht t' ht' heq
    obtain ⟨f, hf, rfl⟩ := Option.map_eq_some_iff.1 ht
    obtain ⟨f', hf', rfl⟩ := Option.map_eq_some_iff.1 ht'
    obtain ⟨-, hscope, -⟩ := fieldDrift?_eq_some hf
    obtain ⟨-, hscope', -⟩ := fieldDrift?_eq_some hf'
    have hlist := congrArg String.toList heq
    simp only [FieldDrift.toList_text, hscope, hscope', String.toList_append, List.append_assoc,
      List.append_cancel_left_eq] at hlist
    exact hne (String.toList_inj.1 (append_cons_inj (hcolon _ hmem) (hcolon _ hmem') hlist).1)

theorem Resource.identified (latest baseline : Resource) (path : String) :
    Identified path ((latest.outline baseline path).texts digest) := by
  have htexts : (latest.outline baseline path).texts digest =
      (latest.fieldDrifts baseline path).map FieldDrift.text := by
    simp only [Forest.texts, Resource.outline, Forest.entries_flatMap, Forest.entries_leaf,
      ← List.map_eq_flatMap, List.map_map]
    rfl
  rw [htexts, Resource.fieldDrifts, List.map_flatMap]
  have hcategory (category : EventCategory) :=
    identified_fieldDrifts category (path ++ "/events/" ++ category.name)
      (latest.events.get category) (baseline.events.get category)
  refine .flatMap EventCategory.name "events/" (by decide) (by decide)
    (fun category _ t ht => ?_) fun category _ => (hcategory category).nodup
  rw [append_slash path "events/"]
  exact ((hcategory category).below t ht).within

theorem Namespace.identified (hex : digest.Hexadecimal) {latest baseline : Namespace} (path : String)
    (hlatest : latest.PlainNames) (hbaseline : baseline.PlainNames) :
    Identified path ((latest.outline baseline path).texts digest) := by
  rw [Forest.texts, Namespace.outline, Forest.entries_flatMap, List.map_flatMap]
  have hkind : ∀ kind ∈ ResourceKind.all,
      Identified (path ++ "/resource-type/" ++ kind.name)
        (((PartSite.ofResource kind path).outline Resource.outline (latest.ofKind kind)
          (baseline.ofKind kind)).texts digest) := by
    intro kind hmem
    exact PartSite.identified hex
      (fun name => (append_slash (path ++ "/resource-type/" ++ kind.name) "resource-name/" name).symm)
      (fun e he => (Named.PlainNames.of_mem_facing (hlatest kind hmem) (hbaseline kind hmem) he).1)
      fun _ new old _ => Resource.identified new old _
  refine .flatMap ResourceKind.name "resource-type/" (by decide) (by decide)
    (fun kind hmem t ht => ?_) fun kind hmem => (hkind kind hmem).nodup
  rw [append_slash path "resource-type/"]
  exact ((hkind kind hmem).below t ht).within

theorem Cluster.identified (hex : digest.Hexadecimal) {latest baseline : Cluster} (path : String)
    (hlatest : latest.PlainNames) (hbaseline : baseline.PlainNames) :
    Identified path ((latest.outline baseline path).texts digest) := by
  refine PartSite.identified hex (fun name => (append_slash path "namespace/" name).symm)
    (fun e he => (hlatest.of_mem_facing hbaseline he).1) fun name new old he => ?_
  obtain ⟨-, hnew, hold⟩ := hlatest.of_mem_facing hbaseline he
  exact Namespace.identified hex _ (hnew new rfl) (hold old rfl)

/-- No two changes of an outline have one text. -/
theorem Workload.nodup_texts (hex : digest.Hexadecimal) {latest baseline : Workload}
    (hlatest : latest.PlainNames) (hbaseline : baseline.PlainNames) :
    ((latest.outline baseline).texts digest).Nodup := by
  have hclusters : Identified rootPath (((PartSite.ofCluster rootPath).outline Cluster.outline
      latest.clusters baseline.clusters).texts digest) := by
    refine PartSite.identified hex (fun name => (append_slash rootPath "cluster/" name).symm)
      (fun e he => (hlatest.of_mem_facing hbaseline he).1) fun name new old he => ?_
    obtain ⟨-, hnew, hold⟩ := hlatest.of_mem_facing hbaseline he
    exact Cluster.identified hex _ (hnew new rfl) (hold old rfl)
  rw [Workload.outline]
  split
  · exact .nil
  · refine List.nodup_cons.2 ⟨fun hmem => ?_, ?_⟩
    · -- The text of the root is a document, and no path starts like one.
      obtain ⟨r, hr⟩ := hclusters.below _ (by simpa [Forest.texts, Forest.entries] using hmem)
      have hhead := congrArg List.head? hr
      simp [Drift.text, Json.canonical, Workload.toJson, Json.sorted, Json.compact, rootPath] at hhead
    · simpa [Forest.texts, Forest.entries] using hclusters.nodup

end WorkloadDrift
