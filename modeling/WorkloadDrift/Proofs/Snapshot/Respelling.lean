import Mathlib.Logic.Relation
import WorkloadDrift.Proofs.Snapshot.Reading

/-!
# Spellings of a snapshot document

The shape of a document, and the steps from one spelling of it to another: members
change places, unknown ones come or go, an absent field becomes null or empty, a
number is quoted. No step changes what is read.
-/
namespace WorkloadDrift

/-- What may stand in a place of a document. -/
inductive Shape where
  | text
  | integer
  | record (fields : List (String × Shape))
  | optional (shape : Shape)
  | mapping (child : Shape)
  | list (entry : Shape)

/-- The empty value that null stands for. An optional value has none. -/
def Shape.empty? : Shape → Option Json
  | .text => some (.str "")
  | .integer => some (.int 0)
  | .record _ | .mapping _ => some (.obj [])
  | .list _ => some (.arr [])
  | .optional _ => none

/-- One step from a spelling to another. -/
inductive Respelling : Shape → Json → Json → Prop
  | quoted {n : Int} {s : String} (h : Text.readInteger s.toList = .ok n) :
      Respelling .integer (.int n) (.str s)
  | permuted {shape : Shape} {members members' : Json.Members}
      (distinct : (members.map (·.1)).Nodup) (h : members.Perm members') :
      Respelling shape (.obj members) (.obj members')
  | unknown {fields : List (String × Shape)} {members : Json.Members} {name : String} (v : Json)
      (known : fields.lookup name = none) (fresh : name ∉ members.map (·.1)) :
      Respelling (.record fields) (.obj members) (.obj ((name, v) :: members))
  | absent {fields : List (String × Shape)} {members : Json.Members} {name : String} {shape : Shape}
      (known : fields.lookup name = some shape) (fresh : name ∉ members.map (·.1)) :
      Respelling (.record fields) (.obj members) (.obj ((name, .null) :: members))
  | empty {fields : List (String × Shape)} {members : Json.Members} {name : String} {shape : Shape}
      {v : Json} (known : fields.lookup name = some shape) (h : shape.empty? = some v) :
      Respelling (.record fields) (.obj ((name, .null) :: members)) (.obj ((name, v) :: members))
  | field {fields : List (String × Shape)} {members : Json.Members} {name : String} {shape : Shape}
      {v v' : Json} (known : fields.lookup name = some shape) (h : Respelling shape v v') :
      Respelling (.record fields) (.obj ((name, v) :: members)) (.obj ((name, v') :: members))
  | present {shape : Shape} {v v' : Json} (h : Respelling shape v v') :
      Respelling (.optional shape) v v'
  | nullChild {shape : Shape} {members : Json.Members} {name : String}
      (fresh : name ∉ members.map (·.1)) :
      Respelling (.mapping shape) (.obj members) (.obj ((name, .null) :: members))
  | child {shape : Shape} {members : Json.Members} {name : String} {v v' : Json}
      (h : Respelling shape v v') :
      Respelling (.mapping shape) (.obj ((name, v) :: members)) (.obj ((name, v') :: members))
  | entry {shape : Shape} {before after : List Json} {v v' : Json} (h : Respelling shape v v') :
      Respelling (.list shape) (.arr (before ++ v :: after)) (.arr (before ++ v' :: after))

def Container.shape : Shape := .record [("name", .text), ("image", .text)]

def ControlPlaneResource.shape : Shape := .record [("namespace", .text), ("type", .text)]

def FileEvent.shape : Shape := .record [
  ("pod", .text), ("container", Container.shape), ("source", .text), ("destination", .text),
  ("count", .integer), ("updatedTime", .integer)]

def NetworkEvent.shape : Shape := .record [
  ("pod", .text), ("container", Container.shape), ("type", .text), ("ip", .text),
  ("port", .integer), ("protocol", .text), ("peerDomainName", .text), ("command", .text),
  ("cpResource", .optional ControlPlaneResource.shape), ("count", .integer),
  ("updatedTime", .integer)]

def EventLists.shape : Shape := .record [
  ("file", .list FileEvent.shape), ("process", .list FileEvent.shape),
  ("ingress", .list NetworkEvent.shape), ("egress", .list NetworkEvent.shape),
  ("bind", .list NetworkEvent.shape)]

def Resource.shape : Shape := .record [("labels", .text), ("events", EventLists.shape)]

def Namespace.shape : Shape :=
  .record (ResourceKind.all.map fun kind => (kind.wireKey, .mapping Resource.shape))

def Cluster.shape : Shape := .record [("namespaces", .mapping Namespace.shape)]

def Workload.shape : Shape := .record [("clusters", .mapping Cluster.shape)]

namespace Json.Members

variable {members members' : Members} {name : String}

theorem value_cons_self (v : Json) : value ((name, v) :: members) name = v := by simp [value]

theorem value_cons_ne {other : String} (h : name ≠ other) (v : Json) :
    value ((other, v) :: members) name = value members name := by
  simp only [value, List.lookup_cons, beq_eq_false_iff_ne.2 h]

theorem value_of_fresh (h : name ∉ members.map (·.1)) : value members name = .null := by
  have hlookup : members.lookup name = none := by
    rw [List.lookup_eq_none_iff]
    intro m hm
    rw [bne_iff_ne]
    rintro rfl
    exact h (List.mem_map_of_mem hm)
  rw [value, hlookup]
  rfl

theorem value_eq_of_perm (distinct : (members.map (·.1)).Nodup) (h : members.Perm members')
    (name : String) : value members name = value members' name := by
  have hnames := h.map (·.1)
  by_cases hname : name ∈ members.map (·.1)
  · obtain ⟨m, hm, rfl⟩ := List.mem_map.1 hname
    rw [value_eq_of_mem distinct hm, value_eq_of_mem (hnames.nodup_iff.1 distinct) (h.mem_iff.1 hm)]
  · rw [value_of_fresh hname, value_of_fresh (mt hnames.mem_iff.2 hname)]

end Json.Members

namespace Respelling

open Json

variable {fields : List (String × Shape)} {members members' : Members}

/-- What depends on one field only does not depend on its spelling. -/
theorem read_eq (h : Respelling (.record fields) (.obj members) (.obj members')) {name : String}
    {shape : Shape} (known : fields.lookup name = some shape) {β : Type} (read : Members → β)
    (reads : ∀ ms ms' : Members, ms.value name = ms'.value name → read ms = read ms')
    (hempty : ∀ v, shape.empty? = some v → read [(name, .null)] = read [(name, v)])
    (hshape : ∀ v v', Respelling shape v v' → read [(name, v)] = read [(name, v')]) :
    read members = read members' := by
  have alone (v : Json) (ms : Members) : read ((name, v) :: ms) = read [(name, v)] :=
    reads _ _ (by simp only [Members.value_cons_self])
  cases h with
  | permuted distinct hperm => exact reads _ _ (Members.value_eq_of_perm distinct hperm name)
  | @unknown _ _ other v unknown fresh =>
    have hne : name ≠ other := by
      rintro rfl
      simp [known] at unknown
    exact reads _ _ (Members.value_cons_ne hne v).symm
  | @absent _ _ other _ _ fresh =>
    apply reads
    by_cases hname : name = other
    · rw [hname, Members.value_cons_self, Members.value_of_fresh fresh]
    · rw [Members.value_cons_ne hname]
  | @empty _ ms other shape' v known' hv =>
    by_cases hname : name = other
    · subst hname
      obtain rfl := Option.some.inj (known.symm.trans known')
      exact (alone _ _).trans ((hempty v hv).trans (alone _ _).symm)
    · exact reads _ _ (by rw [Members.value_cons_ne hname, Members.value_cons_ne hname])
  | @field _ ms other shape' v v' known' hv =>
    by_cases hname : name = other
    · subst hname
      obtain rfl := Option.some.inj (known.symm.trans known')
      exact (alone _ _).trans ((hshape v v' hv).trans (alone _ _).symm)
    · exact reads _ _ (by rw [Members.value_cons_ne hname, Members.value_cons_ne hname])

theorem exists_obj {v v' : Json} (h : Respelling (.record fields) v v') :
    ∃ ms ms', v = .obj ms ∧ v' = .obj ms' := by
  cases h <;> exact ⟨_, _, rfl, rfl⟩

/-- A reader that takes both sides of a step alike. -/
def Alike {β : Type} (shape : Shape) (read : Members → β) : Prop :=
  ∀ ms ms' : Members, Respelling shape (.obj ms) (.obj ms') → read ms = read ms'

section Inside

variable {α β : Type} {inner : List (String × Shape)} {read : Members → Shaped α}

theorem bind_eq (h : Respelling (.record fields) (.obj members) (.obj members')) {name : String}
    (known : fields.lookup name = some (.record inner)) (alike : Alike (.record inner) read)
    (k : α → Shaped β) (inside : Members → Shaped Members)
    (reads : ∀ ms ms' : Members, ms.value name = ms'.value name → inside ms = inside ms')
    (hnull : inside [(name, .null)] = .ok []) (hobj : ∀ ms, inside [(name, .obj ms)] = .ok ms) :
    (inside members >>= fun ms => read ms >>= k) =
      inside members' >>= fun ms => read ms >>= k := by
  apply h.read_eq known fun ms => inside ms >>= fun ms => read ms >>= k
  · intro ms ms' heq
    simp only [reads ms ms' heq]
  · rintro v ⟨⟩
    rw [hnull, hobj]
  · intro v v' hv
    obtain ⟨ms, ms', rfl, rfl⟩ := hv.exists_obj
    simp only [hobj, Except.ok_bind, alike ms ms' hv]

end Inside

section Mappings

variable {α : Type} {inner : List (String × Shape)} {read : Members → Shaped α}

end Mappings

end Respelling

end WorkloadDrift
