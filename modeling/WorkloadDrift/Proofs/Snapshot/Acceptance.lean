import WorkloadDrift.Proofs.Snapshot.Respelling
import WorkloadDrift.Proofs.Text.Integer

/-!
# Which documents are snapshots

A place of a document takes null, or a value of its shape: a text, an integer, plain or
quoted, an object with its own fields, or a mapping or list of these. An object is read as
a snapshot if and only if all its places hold such values, except that labels may be any
blank value. Readers take one field after the other, and so do the proofs.
-/
namespace WorkloadDrift

open Json

/-- A value that a place may hold. What a field holds is not looked at if it is `waived`. -/
inductive Fits (waived : String → Json → Prop) : Shape → Json → Prop
  | null (shape : Shape) : Fits waived shape .null
  | text (s : String) : Fits waived .text (.str s)
  | integer (n : Int) : Fits waived .integer (.int n)
  | quoted {s : String} (h : Text.IsInteger s.toList) : Fits waived .integer (.str s)
  | record {fields : List (String × Shape)} {members : Members}
      (h : ∀ f ∈ fields, ¬ waived f.1 (members.value f.1) → Fits waived f.2 (members.value f.1)) :
      Fits waived (.record fields) (.obj members)
  | optional {shape : Shape} {v : Json} (h : Fits waived shape v) : Fits waived (.optional shape) v
  | mapping {child : Shape} {members : Members} (h : ∀ m ∈ members, Fits waived child m.2) :
      Fits waived (.mapping child) (.obj members)
  | list {entry : Shape} {items : List Json} (h : ∀ v ∈ items, Fits waived entry v) :
      Fits waived (.list entry) (.arr items)

/-- A document that has the shape of a snapshot, waived fields apart. -/
def IsSnapshot (waived : String → Json → Prop) (v : Json) : Prop :=
  (∃ members, v = .obj members) ∧ Fits waived Workload.shape v

/-- Labels that are blank, whatever their kind. -/
def blankLabels (name : String) (v : Json) : Prop := name = "labels" ∧ v.isBlank

namespace Fits

variable {waived : String → Json → Prop}

theorem text_iff {v : Json} : Fits waived .text v ↔ v = .null ∨ ∃ s, v = .str s := by
  constructor
  · rintro (_ | s)
    · exact .inl rfl
    · exact .inr ⟨s, rfl⟩
  · rintro (rfl | ⟨s, rfl⟩)
    · exact .null _
    · exact .text s

theorem integer_iff {v : Json} : Fits waived .integer v ↔
    v = .null ∨ (∃ n, v = .int n) ∨ ∃ s, v = .str s ∧ Text.IsInteger s.toList := by
  constructor
  · rintro (_ | _ | n | h)
    · exact .inl rfl
    · exact .inr (.inl ⟨n, rfl⟩)
    · exact .inr (.inr ⟨_, rfl, h⟩)
  · rintro (rfl | ⟨n, rfl⟩ | ⟨s, rfl, h⟩)
    · exact .null _
    · exact .integer n
    · exact .quoted h

theorem record_iff {fields : List (String × Shape)} {v : Json} : Fits waived (.record fields) v ↔
    v = .null ∨ ∃ members : Members, v = .obj members ∧ ∀ f ∈ fields,
      ¬ waived f.1 (members.value f.1) → Fits waived f.2 (members.value f.1) := by
  constructor
  · rintro (_ | _ | _ | _ | h)
    · exact .inl rfl
    · exact .inr ⟨_, rfl, h⟩
  · rintro (rfl | ⟨members, rfl, h⟩)
    · exact .null _
    · exact .record h

theorem optional_iff {shape : Shape} {v : Json} :
    Fits waived (.optional shape) v ↔ Fits waived shape v := by
  constructor
  · rintro (_ | _ | _ | _ | _ | h)
    · exact .null _
    · exact h
  · exact .optional

theorem mapping_iff {child : Shape} {v : Json} : Fits waived (.mapping child) v ↔
    v = .null ∨ ∃ members, v = .obj members ∧ ∀ m ∈ members, Fits waived child m.2 := by
  constructor
  · rintro (_ | _ | _ | _ | _ | _ | h)
    · exact .inl rfl
    · exact .inr ⟨_, rfl, h⟩
  · rintro (rfl | ⟨members, rfl, h⟩)
    · exact .null _
    · exact .mapping h

theorem list_iff {entry : Shape} {v : Json} : Fits waived (.list entry) v ↔
    v = .null ∨ ∃ items, v = .arr items ∧ ∀ v ∈ items, Fits waived entry v := by
  constructor
  · rintro (_ | _ | _ | _ | _ | _ | _ | h)
    · exact .inl rfl
    · exact .inr ⟨_, rfl, h⟩
  · rintro (rfl | ⟨items, rfl, h⟩)
    · exact .null _
    · exact .list h

theorem field {name : String} {shape : Shape} {fields : List (String × Shape)} {members : Members}
    (h : Fits waived (.record fields) (.obj members)) (hfield : (name, shape) ∈ fields)
    (hchecked : ¬ waived name (members.value name)) : Fits waived shape (members.value name) := by
  cases h with
  | record h => exact h _ hfield hchecked

theorem child {shape : Shape} {members : Members} (h : Fits waived (.mapping shape) (.obj members))
    {m : String × Json} (hm : m ∈ members) : Fits waived shape m.2 := by
  cases h with
  | mapping h => exact h m hm

/-- The first field, and the others. -/
theorem obj_cons_iff {name : String} {shape : Shape} {fields : List (String × Shape)}
    {members : Members} : Fits waived (.record ((name, shape) :: fields)) (.obj members) ↔
      (¬ waived name (members.value name) → Fits waived shape (members.value name)) ∧
        Fits waived (.record fields) (.obj members) := by
  simp [record_iff]

theorem no_members (fields : List (String × Shape)) : Fits waived (.record fields) (.obj []) :=
  .record fun _ _ _ => .null _

end Fits

/-! ## Fields -/

/-- A field is read if and only if its value fits, or is waived. -/
def ReadsField {α : Type} (name : String) (shape : Shape) (read : Members → Shaped α) : Prop :=
  ∀ members : Members, (∃ a, read members = .ok a) ↔
    (¬ blankLabels name (members.value name) → Fits blankLabels shape (members.value name))

/-- An object is read if and only if it fits. -/
def ReadsObject {α : Type} (shape : Shape) (read : Members → Shaped α) : Prop :=
  ∀ members : Members, (∃ a, read members = .ok a) ↔ Fits blankLabels shape (.obj members)

section Fields

variable {α β : Type} {name : String} {shape : Shape} {read : Members → Shaped α}

/-- Only labels are waived. -/
theorem readsField_iff (hname : name ≠ "labels") : ReadsField name shape read ↔
    ∀ members : Members, (∃ a, read members = .ok a) ↔
      Fits blankLabels shape (members.value name) := by
  simp [ReadsField, blankLabels, hname]

theorem readsField_text (name : String) (hname : name ≠ "labels" := by decide) :
    ReadsField name .text (·.readText name) := by
  rw [readsField_iff hname]
  intro members
  simp only [Fits.text_iff, Members.readText]
  cases members.value name <;> simp

theorem readsField_integer (name : String) (hname : name ≠ "labels" := by decide) :
    ReadsField name .integer (·.readInteger name) := by
  rw [readsField_iff hname]
  intro members
  simp only [Fits.integer_iff, Members.readInteger]
  cases members.value name with
  | str s => simp [Except.mapError_eq_ok_iff, Text.exists_readInteger_iff]
  | _ => simp

theorem readsField_labels : ReadsField "labels" .text readLabels := by
  intro members
  unfold readLabels
  split
  · next s heq => simp [heq, Fits.text]
  · next hnot =>
    by_cases hblank : (members.value "labels").isBlank
    · simp [hblank, blankLabels]
    · have hunfit : ¬ Fits blankLabels .text (members.value "labels") := by
        rw [Fits.text_iff]
        rintro (heq | ⟨s, heq⟩)
        · rw [heq] at hblank
          exact hblank rfl
        · exact hnot s heq
      simp [hblank, blankLabels, hunfit]

theorem readsObject_nil (a : α) : ReadsObject (.record []) fun _ => pure a := by
  intro members
  simp [Fits.record_iff]

/-- One field is read after the other. -/
theorem ReadsField.cons (h : ReadsField name shape read) {fields : List (String × Shape)}
    {rest : α → Members → Shaped β} (hrest : ∀ a, ReadsObject (.record fields) (rest a)) :
    ReadsObject (.record ((name, shape) :: fields))
      fun members => read members >>= fun a => rest a members := by
  intro members
  simp only [Except.exists_bind_eq_ok_iff, hrest _ members, exists_and_right, h members,
    Fits.obj_cons_iff]

end Fields

/-! ## Objects -/

/-- What stands inside the object of a field, nothing if the field is null. -/
inductive Inside : Json → Members → Prop
  | null : Inside .null []
  | obj (inner : Members) : Inside (.obj inner) inner

theorem inside_iff {v : Json} {inner : Members} :
    Inside v inner ↔ v = .null ∧ inner = [] ∨ v = .obj inner := by
  constructor
  · rintro (_ | _)
    · exact .inl ⟨rfl, rfl⟩
    · exact .inr rfl
  · rintro (⟨rfl, rfl⟩ | rfl)
    · exact .null
    · exact .obj inner

theorem readObject_eq_ok_iff {members inner : Members} {name : String} :
    members.readObject name = .ok inner ↔ Inside (members.value name) inner := by
  rw [inside_iff, Members.readObject]
  cases members.value name <;> simp [eq_comm]

theorem readMapping_eq_ok_iff {members inner : Members} {name : String} :
    members.readMapping name = .ok inner ↔ Inside (members.value name) inner := by
  rw [inside_iff, Members.readMapping]
  cases members.value name <;> simp [eq_comm]

theorem Fits.exists_inside_iff {waived : String → Json → Prop} {fields : List (String × Shape)}
    {v : Json} : (∃ inner, Inside v inner ∧ Fits waived (.record fields) (.obj inner)) ↔
      Fits waived (.record fields) v := by
  constructor
  · rintro ⟨inner, _ | _, h⟩
    · exact .null _
    · exact h
  · intro h
    obtain rfl | ⟨inner, rfl, -⟩ := record_iff.1 h
    · exact ⟨[], .null, no_members fields⟩
    · exact ⟨inner, .obj inner, h⟩

section Parts

variable {α β : Type} {fields inner : List (String × Shape)}
  {read : Members → Shaped α}

/-- An object inside a field is read before the other fields. -/
theorem ReadsObject.cons (h : ReadsObject (.record inner) read) (name : String)
    {enter : Members → Shaped Members}
    (henter : ∀ members inside, enter members = .ok inside ↔ Inside (members.value name) inside)
    {rest : α → Members → Shaped β} (hrest : ∀ a, ReadsObject (.record fields) (rest a))
    (hname : name ≠ "labels" := by decide) :
    ReadsObject (.record ((name, .record inner) :: fields))
      fun members => enter members >>= fun inside => read inside >>= fun a => rest a members := by
  have hfield : ReadsField name (.record inner) fun members => enter members >>= read := by
    rw [readsField_iff hname]
    intro members
    simp only [Except.exists_bind_eq_ok_iff, henter, h _, Fits.exists_inside_iff]
  simpa only [bind_assoc] using hfield.cons hrest

theorem ReadsObject.optional (h : ReadsObject (.record inner) ControlPlaneResource.read)
    (name : String) (hname : name ≠ "labels" := by decide) :
    ReadsField name (.optional (.record inner)) (ControlPlaneResource.read? · name) := by
  rw [readsField_iff hname]
  intro members
  simp only [ControlPlaneResource.read?, Members.readObject, Fits.optional_iff]
  cases members.value name with
  | null => simp [Fits.null]
  | obj inside => simp [Except.exists_bind_eq_ok_iff, h _]
  | _ => simp [Fits.record_iff]

theorem ReadsObject.exists_readEntry_iff (h : ReadsObject (.record inner) read) {list : String}
    (v : Json) :
    (∃ entry, readEntry read list v = .ok entry) ↔ Fits blankLabels (.record inner) v := by
  cases v with
  | null => simp [readEntry, Fits.null]
  | obj members =>
    rw [← h members]
    exact Except.exists_map_eq_ok_iff
  | _ => simp [readEntry, Fits.record_iff]

theorem ReadsObject.events (h : ReadsObject (.record inner) read) (name : String)
    (hname : name ≠ "labels" := by decide) :
    ReadsField name (.list (.record inner)) (readEvents read · name) := by
  rw [readsField_iff hname]
  intro members
  simp only [readEvents, Members.readList]
  cases members.value name with
  | null => simp [Fits.null]
  | arr items => simp [Fits.list_iff, Except.exists_mapM_eq_ok_iff, h.exists_readEntry_iff]
  | _ => simp [Fits.list_iff]

theorem ReadsObject.exists_readsChild_iff (h : ReadsObject (.record inner) read)
    (m : String × Json) :
    (∃ here, ReadsChild read m here) ↔ Fits blankLabels (.record inner) m.2 := by
  obtain ⟨name, v⟩ := m
  constructor
  · rintro ⟨_, _ | hread⟩
    · exact .null _
    · exact (h _).1 ⟨_, hread⟩
  · intro hfits
    obtain rfl | ⟨members, rfl, hfields⟩ := Fits.record_iff.1 hfits
    · exact ⟨[], .null name⟩
    · obtain ⟨a, hread⟩ := (h members).2 (.record hfields)
      exact ⟨[(name, a)], .child hread⟩

theorem ReadsObject.exists_readChildren_iff (h : ReadsObject (.record inner) read)
    {mapping : String} (members : Members) :
    (∃ pairs, readChildren read mapping members = .ok pairs) ↔
      ∀ m ∈ members, Fits blankLabels (.record inner) m.2 := by
  induction members with
  | nil => simp [readChildren]
  | cons m members ih =>
    rw [List.forall_mem_cons, ← ih, ← h.exists_readsChild_iff m]
    simp only [readChildren_cons_eq_ok]
    constructor
    · rintro ⟨_, here, rest, hhere, hrest, -⟩
      exact ⟨⟨here, hhere⟩, rest, hrest⟩
    · rintro ⟨⟨here, hhere⟩, rest, hrest⟩
      exact ⟨here ++ rest, here, rest, hhere, hrest, rfl⟩

theorem ReadsObject.named (h : ReadsObject (.record inner) read) (name : String)
    (hname : name ≠ "labels" := by decide) :
    ReadsField name (.mapping (.record inner)) (readNamed read · name) := by
  rw [readsField_iff hname]
  intro members
  simp only [readNamed, Members.readMapping]
  cases members.value name with
  | null => simp [readChildren, Fits.null]
  | obj inner =>
    simp [Except.exists_bind_eq_ok_iff, Fits.mapping_iff, h.exists_readChildren_iff]
  | _ => simp [Fits.mapping_iff]

end Parts

/-! ## The parts of a snapshot -/

theorem readsObject_container : ReadsObject Container.shape Container.read := by
  refine (readsField_text "name").cons fun _ => ?_
  refine (readsField_text "image").cons fun _ => ?_
  exact readsObject_nil _

theorem readsObject_controlPlaneResource :
    ReadsObject ControlPlaneResource.shape ControlPlaneResource.read := by
  refine (readsField_text "namespace").cons fun _ => ?_
  refine (readsField_text "type").cons fun _ => ?_
  exact readsObject_nil _

theorem readsObject_fileEvent : ReadsObject FileEvent.shape FileEvent.read := by
  refine (readsField_text "pod").cons fun _ => ?_
  refine readsObject_container.cons "container" (fun _ _ => readObject_eq_ok_iff) fun _ => ?_
  refine (readsField_text "source").cons fun _ => ?_
  refine (readsField_text "destination").cons fun _ => ?_
  refine (readsField_integer "count").cons fun _ => ?_
  refine (readsField_integer "updatedTime").cons fun _ => ?_
  exact readsObject_nil _

theorem readsObject_networkEvent : ReadsObject NetworkEvent.shape NetworkEvent.read := by
  refine (readsField_text "pod").cons fun _ => ?_
  refine readsObject_container.cons "container" (fun _ _ => readObject_eq_ok_iff) fun _ => ?_
  refine (readsField_text "type").cons fun _ => ?_
  refine (readsField_text "ip").cons fun _ => ?_
  refine (readsField_integer "port").cons fun _ => ?_
  refine (readsField_text "protocol").cons fun _ => ?_
  refine (readsField_text "peerDomainName").cons fun _ => ?_
  refine (readsField_text "command").cons fun _ => ?_
  refine (readsObject_controlPlaneResource.optional "cpResource").cons fun _ => ?_
  refine (readsField_integer "count").cons fun _ => ?_
  refine (readsField_integer "updatedTime").cons fun _ => ?_
  exact readsObject_nil _

theorem readsObject_eventLists : ReadsObject EventLists.shape EventLists.read := by
  refine (readsObject_fileEvent.events "file").cons fun _ => ?_
  refine (readsObject_fileEvent.events "process").cons fun _ => ?_
  refine (readsObject_networkEvent.events "ingress").cons fun _ => ?_
  refine (readsObject_networkEvent.events "egress").cons fun _ => ?_
  refine (readsObject_networkEvent.events "bind").cons fun _ => ?_
  exact readsObject_nil _

theorem readsObject_resource : ReadsObject Resource.shape Resource.read := by
  refine readsField_labels.cons fun _ => ?_
  refine readsObject_eventLists.cons "events" (fun _ _ => readMapping_eq_ok_iff) fun _ => ?_
  exact readsObject_nil _

theorem readsObject_namespace : ReadsObject Namespace.shape Namespace.read := by
  refine (readsObject_resource.named "deployments").cons fun _ => ?_
  refine (readsObject_resource.named "replicaSets").cons fun _ => ?_
  refine (readsObject_resource.named "statefulSets").cons fun _ => ?_
  refine (readsObject_resource.named "daemonSets").cons fun _ => ?_
  refine (readsObject_resource.named "jobs").cons fun _ => ?_
  refine (readsObject_resource.named "cronJobs").cons fun _ => ?_
  exact readsObject_nil _

theorem readsObject_cluster : ReadsObject Cluster.shape Cluster.read := by
  refine (readsObject_namespace.named "namespaces").cons fun _ => ?_
  exact readsObject_nil _

theorem readsObject_workload : ReadsObject Workload.shape Workload.read := by
  refine (readsObject_cluster.named "clusters").cons fun _ => ?_
  exact readsObject_nil _

/-! ## Documents -/

theorem exists_ofJson_eq_ok_iff (source : String) (v : Json) :
    (∃ w, Workload.ofJson source v = .ok w) ↔ IsSnapshot blankLabels v := by
  cases v with
  | obj members =>
    simp [Workload.ofJson, IsSnapshot, Except.mapError_eq_ok_iff, readsObject_workload members]
  | _ => simp [Workload.ofJson, IsSnapshot]

/-- A fault is reported against the document it is in. -/
theorem source_of_ofJson {source : String} {v : Json} {e : LoadError}
    (h : Workload.ofJson source v = .error e) : e.source = source := by
  unfold Workload.ofJson at h
  split at h
  · next members =>
    cases hread : Workload.read members with
    | ok w =>
      rw [hread] at h
      cases h
    | error misshapen =>
      rw [hread] at h
      cases h
      rfl
  · cases h
    rfl

/-- A document is read if and only if it is an object with the shape of a snapshot, where
blank labels pass whatever their kind. Any other is rejected under its own name. -/
theorem ofJson_accepts_iff (source : String) (v : Json) :
    ((∃ w, Workload.ofJson source v = .ok w) ↔ IsSnapshot blankLabels v) ∧
      ((∃ rejection, Workload.ofJson source v = .error ⟨source, rejection⟩) ↔
        ¬ IsSnapshot blankLabels v) := by
  refine ⟨exists_ofJson_eq_ok_iff source v, ?_⟩
  rw [← exists_ofJson_eq_ok_iff source v]
  cases hread : Workload.ofJson source v with
  | ok w => simp
  | error e =>
    obtain ⟨named, rejection⟩ := e
    obtain rfl : named = source := source_of_ofJson hread
    simp

/-- A resource whose labels are `false`, and nothing else. -/
def falseLabels : Json :=
  .obj [("clusters", .obj [("c", .obj [("namespaces", .obj [("n", .obj [("deployments",
    .obj [("d", .obj [("labels", .bool false)])])])])])])]

theorem ofJson_accepts_falseLabels : (∃ w, Workload.ofJson "<memory>" falseLabels = .ok w) ∧
    ¬ IsSnapshot (fun _ _ => False) falseLabels := by
  refine ⟨⟨_, rfl⟩, fun ⟨_, hworkload⟩ => ?_⟩
  have hclusters : Fits _ (.mapping Cluster.shape) _ := hworkload.field List.mem_cons_self id
  have hnamespaces : Fits _ (.mapping Namespace.shape) _ :=
    (hclusters.child List.mem_cons_self).field List.mem_cons_self id
  have hresources : Fits _ (.mapping Resource.shape) _ :=
    (hnamespaces.child List.mem_cons_self).field List.mem_cons_self id
  have hlabels : Fits _ .text (.bool false) :=
    (hresources.child List.mem_cons_self).field List.mem_cons_self id
  cases hlabels

end WorkloadDrift
