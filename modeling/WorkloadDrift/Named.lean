import WorkloadDrift.Json.Basic

/-!
# Values by name

A finite mapping from names, held in the order of the names by code points, so
that mappings with the same values are equal.
-/
namespace WorkloadDrift

/-- Puts a value at its place in ascending entries, instead of one with the same name. -/
def insertNamed {α : Type} (name : String) (value : α) : List (String × α) → List (String × α)
  | [] => [(name, value)]
  | (n, v) :: rest =>
    if name < n then (name, value) :: (n, v) :: rest
    else if name = n then (name, value) :: rest
    else (n, v) :: insertNamed name value rest

theorem mem_insertNamed {α : Type} {name : String} {value : α} {e : String × α}
    {entries : List (String × α)} (h : e ∈ insertNamed name value entries) :
    e = (name, value) ∨ e ∈ entries := by
  induction entries with
  | nil => simpa [insertNamed] using h
  | cons first rest ih =>
    unfold insertNamed at h
    split at h
    · simpa using h
    · split at h
      · rcases List.mem_cons.1 h with h | h
        · exact .inl h
        · exact .inr (List.mem_cons_of_mem _ h)
      · rcases List.mem_cons.1 h with h | h
        · exact .inr (h ▸ List.mem_cons_self)
        · exact (ih h).imp_right (List.mem_cons_of_mem _)

abbrev Ascending {α : Type} (entries : List (String × α)) : Prop :=
  entries.Pairwise fun a b => a.1 < b.1

theorem ascending_insertNamed {α : Type} {name : String} {value : α} {entries : List (String × α)}
    (h : Ascending entries) : Ascending (insertNamed name value entries) := by
  induction entries with
  | nil => simp [insertNamed]
  | cons first rest ih =>
    obtain ⟨hfirst, hrest⟩ := List.pairwise_cons.1 h
    unfold insertNamed
    split
    · next hlt =>
      refine List.pairwise_cons.2 ⟨fun e he => ?_, h⟩
      rcases List.mem_cons.1 he with rfl | he
      · exact hlt
      · exact String.lt_trans hlt (hfirst e he)
    · next hge =>
      split
      · next heq => exact List.pairwise_cons.2 ⟨fun e he => heq ▸ hfirst e he, hrest⟩
      · next hne =>
        refine List.pairwise_cons.2 ⟨fun e he => ?_, ih hrest⟩
        rcases mem_insertNamed he with rfl | he
        · exact Std.lt_of_le_of_ne (Std.not_lt.1 hge) fun heq => hne heq.symm
        · exact hfirst e he

structure Named (α : Type) where
  entries : List (String × α)
  ascending : Ascending entries

namespace Named

variable {α β : Type}

@[ext] theorem ext {m₁ m₂ : Named α} (h : m₁.entries = m₂.entries) : m₁ = m₂ := by
  cases m₁
  cases m₂
  simp_all

instance [DecidableEq α] : DecidableEq (Named α) := fun m₁ m₂ =>
  decidable_of_iff (m₁.entries = m₂.entries) ⟨Named.ext, fun h => h ▸ rfl⟩

def empty : Named α := ⟨[], .nil⟩

instance : Inhabited (Named α) := ⟨empty⟩

def insert (m : Named α) (name : String) (value : α) : Named α :=
  ⟨insertNamed name value m.entries, ascending_insertNamed m.ascending⟩

/-- The values of the pairs, the later one where a name occurs twice. -/
def ofList (pairs : List (String × α)) : Named α :=
  pairs.foldl (fun m pair => m.insert pair.1 pair.2) empty

def get? (m : Named α) (name : String) : Option α := m.entries.lookup name

def values (m : Named α) : List α := m.entries.map (·.2)

/-- The entries under a name that the other mapping lacks. -/
def without (m : Named α) (other : Named β) : List (String × α) :=
  m.entries.filter fun e => (other.get? e.1).isNone

def toJson (encode : α → Json) (m : Named α) : Json :=
  .obj (m.entries.map fun (name, v) => (name, encode v))

end Named
end WorkloadDrift
