import WorkloadDrift.Proofs.Json.Numerals
import WorkloadDrift.Proofs.Snapshot.Reading

/-!
# Integers of a snapshot that was read

A number of a snapshot stood in its document, plainly or quoted, and so has no
more digits than are read. It can therefore be read again.
-/
namespace WorkloadDrift

namespace Text

theorem digitValue?_lt {c : Char} {d : Nat} (h : digitValue? c = some d) : d < 10 := by
  obtain ⟨first, hfirst, rfl⟩ := Option.map_eq_some_iff.1 h
  have hrange := List.find?_some hfirst
  simp only [Bool.and_eq_true, decide_eq_true_eq] at hrange
  omega

theorem readable_of_readInteger {text : List Char} {n : Int} (h : readInteger text = .ok n) :
    Decimal.Readable n := by
  unfold readInteger at h
  dsimp only at h
  split at h
  · cases h
  · split at h
    · cases h
    · next hlimit =>
      split at h
      · cases h
      · cases h
        refine Decimal.readable_of_length ?_ (Nat.not_lt.1 hlimit)
        have hdigits : ∀ d ∈ ((signOf (text.dropWhile isSpacing)).2.takeWhile fun c =>
            isDecimalDigit c || c = '_').filterMap digitValue?, d < 10 := by
          intro d hd
          obtain ⟨c, -, hc⟩ := List.mem_filterMap.1 hd
          exact digitValue?_lt hc
        have hlt := Decimal.foldl_digits_lt hdigits 0
        rwa [Nat.zero_add, Nat.mul_one] at hlt

end Text

open Json

def ReadsReadable {α : Type} (encode : α → Json) (read : Members → Shaped α) : Prop :=
  ∀ members a, (∀ m ∈ members, m.2.ReadableIntegers) → read members = .ok a →
    (encode a).ReadableIntegers

theorem readableIntegers_value {members : Members} (h : ∀ m ∈ members, m.2.ReadableIntegers)
    (name : String) : (members.value name).ReadableIntegers := by
  unfold Members.value
  cases hlookup : members.lookup name with
  | none => simp
  | some v =>
    obtain ⟨l₁, l₂, hmembers, -⟩ := List.lookup_eq_some_iff.1 hlookup
    exact h (name, v) (by simp [hmembers])

theorem readable_of_readInteger {members : Members} (h : ∀ m ∈ members, m.2.ReadableIntegers)
    {name : String} {n : Int} (hread : members.readInteger name = .ok n) : Decimal.Readable n := by
  have hvalue := readableIntegers_value h name
  unfold Members.readInteger at hread
  split at hread
  · cases hread
    exact Decimal.readable_zero
  · next heq =>
    cases hread
    simpa [heq] using hvalue
  · exact Text.readable_of_readInteger (Except.mapError_eq_ok_iff.1 hread)
  · cases hread

theorem readsReadable_fileEvent : ReadsReadable FileEvent.toJson FileEvent.read := by
  intro members e h hread
  simp only [FileEvent.read, Except.bind_eq_ok_iff] at hread
  obtain ⟨_, -, _, -, _, -, _, -, _, -, count, hcount, time, htime, hread⟩ := hread
  cases hread
  have rcount := readable_of_readInteger h hcount
  have rtime := readable_of_readInteger h htime
  simp [FileEvent.toJson, Container.toJson, rcount, rtime]

theorem readsReadable_networkEvent : ReadsReadable NetworkEvent.toJson NetworkEvent.read := by
  intro members e h hread
  simp only [NetworkEvent.read, Except.bind_eq_ok_iff] at hread
  obtain ⟨_, -, _, -, _, -, _, -, _, -, port, hport, _, -, _, -, _, -, peer, -, count, hcount, time,
    htime, hread⟩ := hread
  cases hread
  have rport := readable_of_readInteger h hport
  have rcount := readable_of_readInteger h hcount
  have rtime := readable_of_readInteger h htime
  cases peer <;>
    simp [NetworkEvent.toJson, Container.toJson, ControlPlaneResource.toJson, rport, rcount, rtime]

section Containers

variable {α : Type} {encode : α → Json} {read : Members → Shaped α}

theorem readableIntegers_of_readMapping {members inner : Members}
    (h : ∀ m ∈ members, m.2.ReadableIntegers) {name : String}
    (hread : members.readMapping name = .ok inner) : ∀ m ∈ inner, m.2.ReadableIntegers := by
  have hvalue := readableIntegers_value h name
  unfold Members.readMapping at hread
  split at hread
  · cases hread
    simp
  · next heq =>
    cases hread
    simpa [heq] using hvalue
  · cases hread

theorem readableIntegers_of_readList {members : Members} {items : List Json}
    (h : ∀ m ∈ members, m.2.ReadableIntegers) {name : String}
    (hread : members.readList name = .ok items) : ∀ v ∈ items, v.ReadableIntegers := by
  have hvalue := readableIntegers_value h name
  unfold Members.readList at hread
  split at hread
  · cases hread
    simp
  · next heq =>
    cases hread
    simpa [heq] using hvalue
  · cases hread

theorem ReadsReadable.entry (h : ReadsReadable encode read) {list : String} {v : Json}
    {entry : Option α} (hv : v.ReadableIntegers) (hread : readEntry read list v = .ok entry) :
    (nullable encode entry).ReadableIntegers := by
  unfold readEntry at hread
  split at hread
  · cases hread
    simp [nullable]
  · obtain ⟨a, ha, rfl⟩ := Except.map_eq_ok_iff.1 hread
    exact h _ a (readableIntegers_obj.1 hv) ha
  · cases hread

theorem ReadsReadable.events (h : ReadsReadable encode read) {members : Members}
    (hmembers : ∀ m ∈ members, m.2.ReadableIntegers) {list : String} {entries : List (Option α)}
    (hread : readEvents read members list = .ok entries) :
    (Json.arr (entries.map (nullable encode))).ReadableIntegers := by
  obtain ⟨items, hitems, hentries⟩ := Except.bind_eq_ok_iff.1 hread
  have hreadable := readableIntegers_of_readList hmembers hitems
  clear hitems hread
  induction items generalizing entries with
  | nil =>
    cases hentries
    simp
  | cons v items ih =>
    rw [List.mapM_cons] at hentries
    obtain ⟨entry, hentry, hentries⟩ := Except.bind_eq_ok_iff.1 hentries
    obtain ⟨rest, hrest, heq⟩ := Except.bind_eq_ok_iff.1 hentries
    cases heq
    obtain ⟨hv, hitems⟩ := List.forall_mem_cons.1 hreadable
    have hfirst := h.entry hv hentry
    have hothers := ih hrest hitems
    rw [readableIntegers_arr] at hothers ⊢
    exact List.forall_mem_cons.2 ⟨hfirst, hothers⟩

theorem ReadsReadable.children (h : ReadsReadable encode read) {mapping : String}
    {members : Members} (hmembers : ∀ m ∈ members, m.2.ReadableIntegers)
    {pairs : List (String × α)} (hread : readChildren read mapping members = .ok pairs) :
    ∀ e ∈ pairs, (encode e.2).ReadableIntegers := by
  induction members generalizing pairs with
  | nil =>
    cases hread
    simp
  | cons m members ih =>
    obtain ⟨here, rest, hhere, hrest, rfl⟩ := readChildren_cons_eq_ok.1 hread
    obtain ⟨hm, hmembers⟩ := List.forall_mem_cons.1 hmembers
    have hothers := ih hmembers hrest
    cases hhere with
    | null => exact hothers
    | child hchild =>
      exact List.forall_mem_cons.2 ⟨h _ _ (readableIntegers_obj.1 hm) hchild, hothers⟩

theorem ReadsReadable.named (h : ReadsReadable encode read) {members : Members}
    (hmembers : ∀ m ∈ members, m.2.ReadableIntegers) {mapping : String} {m : Named α}
    (hread : readNamed read members mapping = .ok m) : (m.toJson encode).ReadableIntegers := by
  obtain ⟨inner, hinner, hread⟩ := Except.bind_eq_ok_iff.1 hread
  obtain ⟨pairs, hpairs, hm⟩ := Except.bind_eq_ok_iff.1 hread
  cases hm
  have hchildren := h.children (readableIntegers_of_readMapping hmembers hinner) hpairs
  rw [Named.toJson, readableIntegers_obj, List.forall_mem_map]
  intro e he
  exact hchildren e (Named.mem_of_mem_ofList he)

end Containers

theorem readsReadable_eventLists : ReadsReadable EventLists.toJson EventLists.read := by
  intro members e h hread
  simp only [EventLists.read, Except.bind_eq_ok_iff] at hread
  obtain ⟨_, hfile, _, hprocess, _, hingress, _, hegress, _, hbind, hread⟩ := hread
  cases hread
  have rfile := readsReadable_fileEvent.events h hfile
  have rprocess := readsReadable_fileEvent.events h hprocess
  have ringress := readsReadable_networkEvent.events h hingress
  have regress := readsReadable_networkEvent.events h hegress
  have rbind := readsReadable_networkEvent.events h hbind
  rw [EventLists.toJson, readableIntegers_obj]
  simp only [List.forall_mem_cons, List.not_mem_nil, false_imp_iff, implies_true, and_true]
  exact ⟨rfile, rprocess, ringress, regress, rbind⟩

theorem readsReadable_resource : ReadsReadable Resource.toJson Resource.read := by
  intro members r h hread
  simp only [Resource.read, Except.bind_eq_ok_iff] at hread
  obtain ⟨labels, -, inner, hinner, events, hevents, hread⟩ := hread
  cases hread
  have revents := readsReadable_eventLists _ _ (readableIntegers_of_readMapping h hinner) hevents
  simpa [Resource.toJson] using revents

theorem readsReadable_namespace : ReadsReadable Namespace.toJson Namespace.read := by
  intro members n h hread
  simp only [Namespace.read, Except.bind_eq_ok_iff] at hread
  obtain ⟨_, hdeployments, _, hreplicaSets, _, hstatefulSets, _, hdaemonSets, _, hjobs, _, hcronJobs,
    hread⟩ := hread
  cases hread
  rw [Namespace.toJson, readableIntegers_obj, List.forall_mem_map]
  intro kind _
  cases kind with
  | deployment => exact readsReadable_resource.named h hdeployments
  | replicaSet => exact readsReadable_resource.named h hreplicaSets
  | statefulSet => exact readsReadable_resource.named h hstatefulSets
  | daemonSet => exact readsReadable_resource.named h hdaemonSets
  | job => exact readsReadable_resource.named h hjobs
  | cronJob => exact readsReadable_resource.named h hcronJobs

theorem readsReadable_cluster : ReadsReadable Cluster.toJson Cluster.read := by
  intro members c h hread
  obtain ⟨namespaces, hnamespaces, hread⟩ := Except.bind_eq_ok_iff.1 hread
  cases hread
  simpa [Cluster.toJson] using readsReadable_namespace.named h hnamespaces

theorem readsReadable_workload : ReadsReadable Workload.toJson Workload.read := by
  intro members w h hread
  obtain ⟨clusters, hclusters, hread⟩ := Except.bind_eq_ok_iff.1 hread
  cases hread
  simpa [Workload.toJson] using readsReadable_cluster.named h hclusters

end WorkloadDrift
