import WorkloadDrift.Proofs.ContentHash
import WorkloadDrift.Proofs.Except
import WorkloadDrift.Snapshot.Reader

/-!
# Snapshot documents read back

What is read from the document of a value is that value, in whatever order the
document lists its members.
-/
namespace WorkloadDrift

open Json

/-! ## Children of a mapping -/

section Children

variable {α : Type} {read : Members → Shaped α} {mapping : String}

/-- What one member of a mapping gives: nothing if it is null, else the child under its name. -/
inductive ReadsChild (read : Members → Shaped α) : String × Json → List (String × α) → Prop
  | null (name : String) : ReadsChild read (name, .null) []
  | child {name : String} {inner : Members} {a : α} (h : read inner = .ok a) :
      ReadsChild read (name, .obj inner) [(name, a)]

theorem readChildren_cons_eq_ok {m : String × Json} {members : Members}
    {pairs : List (String × α)} :
    readChildren read mapping (m :: members) = .ok pairs ↔
      ∃ here rest, ReadsChild read m here ∧ readChildren read mapping members = .ok rest ∧
        here ++ rest = pairs := by
  obtain ⟨name, v⟩ := m
  constructor
  · intro h
    unfold readChildren at h
    split at h
    · next heq => cases heq
    · next heq =>
      cases heq
      exact ⟨[], pairs, .null _, h, rfl⟩
    · next heq =>
      cases heq
      obtain ⟨a, hread, h⟩ := Except.bind_eq_ok_iff.1 h
      obtain ⟨rest, hrest, h⟩ := Except.bind_eq_ok_iff.1 h
      cases h
      exact ⟨[(name, a)], rest, .child hread, hrest, rfl⟩
    · cases h
  · rintro ⟨here, rest, hchild, hrest, rfl⟩
    cases hchild with
    | null => exact hrest
    | child hread =>
      simp [readChildren, hread, hrest]

theorem readChildren_map {pairs : List (String × α)} {encoded : String × α → Json}
    (h : ∀ e ∈ pairs, ∃ inner, encoded e = .obj inner ∧ read inner = .ok e.2) :
    readChildren read mapping (pairs.map fun e => (e.1, encoded e)) = .ok pairs := by
  induction pairs with
  | nil => rfl
  | cons e pairs ih =>
    obtain ⟨⟨inner, hinner, hread⟩, hpairs⟩ := List.forall_mem_cons.1 h
    have hchild : ReadsChild read (e.1, encoded e) [e] := by
      rw [hinner]
      exact .child hread
    exact readChildren_cons_eq_ok.2 ⟨[e], pairs, hchild, ih hpairs, rfl⟩

/-- The order of members is the order of the children. -/
theorem readChildren_perm {members members' : Members} (h : members.Perm members')
    {pairs : List (String × α)} (hread : readChildren read mapping members = .ok pairs) :
    ∃ pairs', readChildren read mapping members' = .ok pairs' ∧ pairs'.Perm pairs := by
  induction h generalizing pairs with
  | nil => exact ⟨pairs, hread, .refl _⟩
  | cons m _ ih =>
    obtain ⟨here, rest, hhere, hrest, rfl⟩ := readChildren_cons_eq_ok.1 hread
    obtain ⟨rest', hrest', hperm⟩ := ih hrest
    exact ⟨here ++ rest', readChildren_cons_eq_ok.2 ⟨here, rest', hhere, hrest', rfl⟩,
      hperm.append_left here⟩
  | swap m n members =>
    obtain ⟨first, _, hfirst, hmore, rfl⟩ := readChildren_cons_eq_ok.1 hread
    obtain ⟨second, rest, hsecond, hrest, rfl⟩ := readChildren_cons_eq_ok.1 hmore
    refine ⟨second ++ (first ++ rest), ?_, ?_⟩
    · exact readChildren_cons_eq_ok.2 ⟨second, _, hsecond,
        readChildren_cons_eq_ok.2 ⟨first, rest, hfirst, hrest, rfl⟩, rfl⟩
    · rw [← List.append_assoc, ← List.append_assoc]
      exact List.perm_append_comm.append_right rest
  | trans _ _ ih ih' =>
    obtain ⟨middle, hmiddle, hperm⟩ := ih hread
    obtain ⟨last, hlast, hperm'⟩ := ih' hmiddle
    exact ⟨last, hlast, hperm'.trans hperm⟩

end Children

namespace Json
theorem Members.value_eq_of_mem {members : Members} (distinct : (members.map (·.1)).Nodup)
    {name : String} {v : Json} (h : (name, v) ∈ members) : Members.value members name = v := by
  induction members with
  | nil => simp at h
  | cons m members ih =>
    obtain ⟨hnew, hnodup⟩ := List.nodup_cons.1 distinct
    rcases List.mem_cons.1 h with rfl | h
    · simp [value]
    · have hne : (name == m.1) = false := by
        rw [beq_eq_false_iff_ne]
        rintro rfl
        exact hnew (List.mem_map.2 ⟨_, h, rfl⟩)
      rw [← ih hnodup h, value, value, List.lookup_cons, hne]

/-- The members of a value that agrees with an object. -/
theorem SameValue.obj_left {fields : Members} {v : Json} (h : SameValue (obj fields) v)
    (distinct : v.DistinctNames) :
    ∃ members : Members, v = obj members ∧ ∀ m ∈ fields, SameValue m.2 (members.value m.1) ∧
      (members.value m.1).DistinctNames := by
  cases v with
  | obj members =>
    refine ⟨members, rfl, fun m hm => ?_⟩
    obtain ⟨hnames, hdistinct⟩ := distinctNames_obj.1 distinct
    obtain ⟨v, hv, hsame⟩ := (sameValue_obj.1 h).2 m hm
    rw [Members.value_eq_of_mem hnames hv]
    exact ⟨hsame, hdistinct _ hv⟩
  | null | bool | int | float | str | arr => simp [SameValue] at h

/-- Reading takes back the encoding, whatever the order of members. -/
def ReadsBack {α : Type} (encode : α → Json) (read : Members → Shaped α) : Prop :=
  ∀ a v, SameValue (encode a) v → v.DistinctNames →
    ∃ members, v = obj members ∧ read members = .ok a

theorem readsBack_container : ReadsBack Container.toJson Container.read := by
  intro c v hsame distinct
  obtain ⟨members, rfl, hfields⟩ := hsame.obj_left distinct
  simp at hfields
  obtain ⟨⟨hname, -⟩, himage, -⟩ := hfields
  refine ⟨members, rfl, ?_⟩
  simp [Container.read, Members.readText, hname, himage]

theorem readsBack_controlPlaneResource :
    ReadsBack ControlPlaneResource.toJson ControlPlaneResource.read := by
  intro c v hsame distinct
  obtain ⟨members, rfl, hfields⟩ := hsame.obj_left distinct
  simp at hfields
  obtain ⟨⟨hnamespace, -⟩, htype, -⟩ := hfields
  refine ⟨members, rfl, ?_⟩
  simp [ControlPlaneResource.read, Members.readText, hnamespace, htype]

theorem readsBack_fileEvent : ReadsBack FileEvent.toJson FileEvent.read := by
  intro e v hsame distinct
  obtain ⟨members, rfl, hfields⟩ := hsame.obj_left distinct
  simp at hfields
  obtain ⟨⟨hpod, -⟩, ⟨hcontainer, dcontainer⟩, ⟨hsource, -⟩, ⟨hdestination, -⟩, ⟨hcount, -⟩,
    htime, -⟩ := hfields
  obtain ⟨inner, hinner, hread⟩ := readsBack_container _ _ hcontainer dcontainer
  refine ⟨members, rfl, ?_⟩
  simp [FileEvent.read, Members.readText, Members.readObject, Members.readInteger, hpod, hinner,
    hread, hsource, hdestination, hcount, htime]

theorem readsBack_networkEvent : ReadsBack NetworkEvent.toJson NetworkEvent.read := by
  intro e v hsame distinct
  obtain ⟨members, rfl, hfields⟩ := hsame.obj_left distinct
  simp at hfields
  obtain ⟨⟨hpod, -⟩, ⟨hcontainer, dcontainer⟩, ⟨htype, -⟩, ⟨hip, -⟩, ⟨hport, -⟩, ⟨hprotocol, -⟩,
    ⟨hpeer, -⟩, ⟨hcommand, -⟩, ⟨hcp, dcp⟩, ⟨hcount, -⟩, htime, -⟩ := hfields
  obtain ⟨inner, hinner, hread⟩ := readsBack_container _ _ hcontainer dcontainer
  have hresource : ControlPlaneResource.read? members "cpResource" = .ok e.cpResource := by
    cases hvalue : e.cpResource with
    | none =>
      simp [hvalue] at hcp
      simp [ControlPlaneResource.read?, hcp]
    | some r =>
      rw [hvalue] at hcp
      obtain ⟨inner, hinner, hread⟩ := readsBack_controlPlaneResource _ _ hcp dcp
      simp [ControlPlaneResource.read?, Members.readObject, hinner, hread]
  refine ⟨members, rfl, ?_⟩
  simp [NetworkEvent.read, Members.readText, Members.readObject, Members.readInteger, hpod, hinner,
    hread, htype, hip, hport, hprotocol, hpeer, hcommand, hresource, hcount, htime]

section Containers

variable {α : Type} {encode : α → Json} {read : Members → Shaped α}

theorem ReadsBack.entry (h : ReadsBack encode read) {list : String} {entry : Option α} {v : Json}
    (hsame : SameValue (nullable encode entry) v) (distinct : v.DistinctNames) :
    readEntry read list v = .ok entry := by
  cases entry with
  | none =>
    have hnull : v = .null := by simpa [nullable] using hsame
    rw [hnull]
    rfl
  | some a =>
    obtain ⟨members, rfl, hread⟩ := h a v hsame distinct
    rw [readEntry, hread]
    rfl

theorem ReadsBack.entries (h : ReadsBack encode read) {list : String} {entries : List (Option α)}
    {items : List Json} (hsame : SameItems (entries.map (nullable encode)) items)
    (distinct : ∀ v ∈ items, v.DistinctNames) : items.mapM (readEntry read list) = .ok entries := by
  induction entries generalizing items with
  | nil =>
    cases items with
    | nil => rfl
    | cons v items => simp [SameItems] at hsame
  | cons entry entries ih =>
    cases items with
    | nil => simp [SameItems] at hsame
    | cons v items =>
      simp only [List.map_cons, SameItems] at hsame
      obtain ⟨hv, hitems⟩ := List.forall_mem_cons.1 distinct
      rw [List.mapM_cons, h.entry hsame.1 hv, ih hsame.2 hitems]
      rfl

theorem ReadsBack.events (h : ReadsBack encode read) {members : Members} {list : String}
    {entries : List (Option α)}
    (hsame : SameValue (.arr (entries.map (nullable encode))) (members.value list))
    (distinct : (members.value list).DistinctNames) :
    readEvents read members list = .ok entries := by
  cases hvalue : members.value list with
  | arr items =>
    rw [hvalue] at hsame distinct
    simp only [SameValue] at hsame
    have hentries : items.mapM (readEntry read list) = .ok entries :=
      h.entries hsame (distinctNames_arr.1 distinct)
    simp [readEvents, Members.readList, hvalue, hentries]
  | null | bool | int | float | str | obj =>
    rw [hvalue] at hsame
    simp [SameValue] at hsame

theorem ReadsBack.named (h : ReadsBack encode read) {members : Members} {mapping : String}
    {m : Named α} (hsame : SameValue (m.toJson encode) (members.value mapping))
    (distinct : (members.value mapping).DistinctNames) :
    readNamed read members mapping = .ok m := by
  obtain ⟨inner, hinner, hfields⟩ := hsame.obj_left distinct
  rw [hinner] at hsame distinct
  have hnames := (distinctNames_obj.1 distinct).1
  -- the members in the order of the names
  let listed : Members := m.entries.map fun e => (e.1, Members.value inner e.1)
  have hlisted : listed.Perm inner := by
    have hnodup : (listed.map (·.1)).Nodup := by
      simpa [listed, Function.comp_def] using m.nodup_names
    refine (perm_iff_subset_of_nodup (List.Nodup.of_map _ hnodup)).2 ⟨?_, ?_⟩
    · simpa [listed, Named.toJson] using (sameValue_obj.1 hsame).1
    · intro member hmember
      obtain ⟨e, he, rfl⟩ := List.mem_map.1 hmember
      obtain ⟨v, hv, -⟩ := (sameValue_obj.1 hsame).2 (e.1, encode e.2) (List.mem_map.2 ⟨e, he, rfl⟩)
      rwa [Members.value_eq_of_mem hnames hv]
  have hread : readChildren read mapping listed = .ok m.entries := by
    apply readChildren_map
    intro e he
    obtain ⟨hvalue, dvalue⟩ := hfields (e.1, encode e.2) (List.mem_map.2 ⟨e, he, rfl⟩)
    exact h e.2 _ hvalue dvalue
  obtain ⟨pairs, hpairs, hperm⟩ := readChildren_perm hlisted hread
  have hdistinct : (pairs.map (·.1)).Nodup := ((hperm.map _).nodup_iff).2 m.nodup_names
  have hm : Named.ofList pairs = m :=
    Named.eq_of_entries_perm ((Named.perm_ofList hdistinct).trans hperm)
  simp [readNamed, Members.readMapping, hinner, hpairs, hm]

end Containers

theorem readsBack_eventLists : ReadsBack EventLists.toJson EventLists.read := by
  intro e v hsame distinct
  obtain ⟨members, rfl, hfields⟩ := hsame.obj_left distinct
  simp only [List.forall_mem_cons, List.not_mem_nil, false_imp_iff, implies_true, and_true]
    at hfields
  obtain ⟨⟨hfile, dfile⟩, ⟨hprocess, dprocess⟩, ⟨hingress, dingress⟩, ⟨hegress, degress⟩, hbind,
    dbind⟩ := hfields
  refine ⟨members, rfl, ?_⟩
  simp [EventLists.read, readsBack_fileEvent.events hfile dfile,
    readsBack_fileEvent.events hprocess dprocess, readsBack_networkEvent.events hingress dingress,
    readsBack_networkEvent.events hegress degress, readsBack_networkEvent.events hbind dbind]

theorem readsBack_resource : ReadsBack Resource.toJson Resource.read := by
  intro r v hsame distinct
  obtain ⟨members, rfl, hfields⟩ := hsame.obj_left distinct
  simp at hfields
  obtain ⟨⟨hlabels, -⟩, hevents, devents⟩ := hfields
  obtain ⟨inner, hinner, hread⟩ := readsBack_eventLists _ _ hevents devents
  refine ⟨members, rfl, ?_⟩
  simp [Resource.read, readLabels, Members.readMapping, hlabels, hinner, hread]

theorem readsBack_namespace : ReadsBack Namespace.toJson Namespace.read := by
  intro n v hsame distinct
  obtain ⟨members, rfl, hfields⟩ := hsame.obj_left distinct
  have hkind (kind : ResourceKind) :
      readNamed Resource.read members kind.wireKey = .ok (n.ofKind kind) := by
    obtain ⟨hsame, distinct⟩ := hfields (kind.wireKey, (n.ofKind kind).toJson Resource.toJson)
      (List.mem_map.2 ⟨kind, by cases kind <;> decide, rfl⟩)
    exact readsBack_resource.named hsame distinct
  refine ⟨members, rfl, ?_⟩
  simp [Namespace.read, hkind, Namespace.ofKind]

theorem readsBack_cluster : ReadsBack Cluster.toJson Cluster.read := by
  intro c v hsame distinct
  obtain ⟨members, rfl, hfields⟩ := hsame.obj_left distinct
  obtain ⟨hsame, distinct⟩ := hfields _ List.mem_cons_self
  refine ⟨members, rfl, ?_⟩
  simp [Cluster.read, readsBack_namespace.named hsame distinct]

theorem readsBack_workload : ReadsBack Workload.toJson Workload.read := by
  intro w v hsame distinct
  obtain ⟨members, rfl, hfields⟩ := hsame.obj_left distinct
  obtain ⟨hsame, distinct⟩ := hfields _ List.mem_cons_self
  refine ⟨members, rfl, ?_⟩
  simp [Workload.read, readsBack_cluster.named hsame distinct]

end Json
end WorkloadDrift
