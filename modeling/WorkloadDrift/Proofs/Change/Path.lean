import Mathlib.Algebra.Group.Nat.Even
import Mathlib.Data.List.Induction
import WorkloadDrift.Change.Path
import WorkloadDrift.Proofs.Comparison.Identity

/-!
# Reading paths

A path is read in pairs of segments from its start, so a key is only taken for a
key if an even number of segments stands before it.
-/
namespace WorkloadDrift

theorem Text.splitAt_eq_splitOn (separator : Char) (cs : List Char) :
    splitAt separator cs = cs.splitOn separator := by
  induction cs with
  | nil => rfl
  | cons c cs ih =>
    rw [List.splitOn_cons_eq_if_modifyHead, ← ih, splitAt]
    by_cases h : c = separator
    · simp [h]
    · simp only [h, if_false, beq_iff_eq]
      cases hparts : splitAt separator cs with
      | nil => exact absurd hparts (splitAt_ne_nil separator cs)
      | cons part parts => rfl

theorem Text.length_splitOn (separator : Char) (cs : List Char) :
    (cs.splitOn separator).length = cs.count separator + 1 := by
  induction cs with
  | nil => rfl
  | cons c cs ih =>
    rw [List.splitOn_cons_eq_if_modifyHead, List.count_cons]
    split <;> simp [ih]

theorem Text.not_mem_of_mem_splitOn {separator : Char} {cs part : List Char}
    (h : part ∈ cs.splitOn separator) : separator ∉ part := by
  induction cs generalizing part with
  | nil =>
    rw [List.splitOn_nil, List.mem_singleton] at h
    simp [h]
  | cons c cs ih =>
    rw [List.splitOn_cons_eq_if_modifyHead] at h
    split at h
    · rcases List.mem_cons.1 h with rfl | h
      · simp
      · exact ih h
    · next hc =>
      obtain ⟨first, parts, hparts⟩ := List.exists_cons_of_ne_nil (List.splitOn_ne_nil separator cs)
      rw [hparts] at ih h
      rcases List.mem_cons.1 h with rfl | h
      · exact List.not_mem_cons_of_ne_of_not_mem (fun heq => hc (by simp [heq])) (ih (by simp))
      · exact ih (List.mem_cons_of_mem _ h)

namespace Named

variable {α : Type} {name key : String}

theorem lookup_cons (value : α) (entries : List (String × α)) :
    ((name, value) :: entries).lookup key = if key = name then some value else entries.lookup key := by
  rw [List.lookup_cons]
  by_cases h : key = name
  · simp [h]
  · simp [beq_eq_false_iff_ne.2 h, h]

theorem lookup_insertNamed (value : α) (entries : List (String × α)) :
    (insertNamed name value entries).lookup key =
      if key = name then some value else entries.lookup key := by
  induction entries with
  | nil => exact lookup_cons value []
  | cons e entries ih =>
    obtain ⟨n, v⟩ := e
    unfold insertNamed
    split
    · exact lookup_cons value _
    · split
      · next heq =>
        subst heq
        rw [lookup_cons, lookup_cons]
        split <;> rfl
      · next hne =>
        rw [lookup_cons, lookup_cons, ih]
        by_cases h : key = n
        · simp [h, Ne.symm hne]
        · simp [h]

theorem get?_insert (m : Named α) (value : α) :
    (m.insert name value).get? key = if key = name then some value else m.get? key :=
  lookup_insertNamed value m.entries

/-- Of the pairs with a name the last one counts. -/
theorem get?_ofList (pairs : List (String × α)) :
    (ofList pairs).get? key = pairs.reverse.lookup key := by
  induction pairs using List.reverseRecOn with
  | nil => rfl
  | append_singleton pairs pair ih =>
    have hlast : ofList (pairs ++ [pair]) = (ofList pairs).insert pair.1 pair.2 := by
      simp [ofList]
    rw [hlast, get?_insert, ih, List.reverse_append, List.reverse_singleton, List.singleton_append,
      lookup_cons]

end Named

namespace ChangePath

/-! ## Segments -/

theorem segments_eq (path : String) :
    segments path = (path.toList.splitOn '/').map String.ofList := by
  rw [segments, Text.splitAt_eq_splitOn]

theorem segments_append (a b : String) : segments (a ++ "/" ++ b) = segments a ++ segments b := by
  have hchars : (a ++ "/" ++ b).toList = a.toList ++ '/' :: b.toList := by simp
  rw [segments_eq, hchars, List.splitOn_append_cons_self, List.map_append, ← segments_eq,
    ← segments_eq]

theorem segments_of_plain {name : String} (plain : PlainName name) : segments name = [name] := by
  rw [segments_eq, List.splitOn_eq_singleton plain]
  simp

theorem segments_key (mark key : String) (hmark : mark = "/" ++ key ++ "/") (plain : PlainName key)
    (a b : String) : segments (a ++ mark ++ b) = segments a ++ key :: segments b := by
  have hjoin : a ++ mark ++ b = a ++ "/" ++ (key ++ "/" ++ b) := by
    simp [hmark, String.append_assoc]
  rw [hjoin, segments_append, segments_append, segments_of_plain plain, List.singleton_append]

theorem segments_ne_nil (path : String) : segments path ≠ [] := by
  simp [segments, Text.splitAt_ne_nil]

/-- There is one segment more than there are slashes. -/
theorem length_segments (path : String) :
    (segments path).length = path.toList.count '/' + 1 := by
  rw [segments_eq, List.length_map, Text.length_splitOn]

theorem plain_of_mem_segments {path s : String} (h : s ∈ segments path) : PlainName s := by
  rw [segments_eq, List.mem_map] at h
  obtain ⟨part, hpart, rfl⟩ := h
  rw [PlainName, String.toList_ofList]
  exact Text.not_mem_of_mem_splitOn hpart

/-! ## Pairs -/

theorem pairs_append {front : List String} (h : Even front.length) (back : List String) :
    pairs (front ++ back) = pairs front ++ pairs back := by
  induction front using pairs.induct with
  | case1 key name rest ih =>
    have hrest : Even rest.length := by simpa [Nat.even_add_one] using h
    simp only [List.cons_append, pairs, ih hrest]
  | case2 front hshort =>
    match front, hshort, h with
    | [], _, _ => rfl
    | [_], _, h => simp at h
    | key :: name :: rest, hshort, _ => exact absurd rfl (hshort key name rest)

theorem mem_of_mem_pairs {l : List String} {pair : String × String} (h : pair ∈ pairs l) :
    pair.2 ∈ l := by
  induction l using pairs.induct with
  | case1 key name rest ih =>
    rcases List.mem_cons.1 h with rfl | h
    · simp
    · exact List.mem_cons_of_mem _ (List.mem_cons_of_mem _ (ih h))
  | case2 l hshort => simp [pairs] at h

/-- The last of the pairs with a key counts. -/
theorem get?_info (path key : String) :
    (info path).get? key = (pairs (segments path).tail).reverse.lookup key :=
  Named.get?_ofList _

theorem plain_of_get?_info {path key value : String} (h : (info path).get? key = some value) :
    PlainName value := by
  have hmem : (key, value) ∈ pairs (segments path).tail :=
    Named.mem_of_mem_ofList (Named.get?_eq_some_iff.1 h)
  exact plain_of_mem_segments (List.mem_of_mem_tail (mem_of_mem_pairs hmem))

/-- A path leads to a resource if both its keys are found, with the kind and the name. -/
theorem workload_eq_iff {path kind name : String} (plain : PlainName kind) (hkind : kind ≠ "") :
    workload path = kind ++ "/" ++ name ↔ name ≠ "" ∧
      (info path).get? "resource-type" = some kind ∧ (info path).get? "resource-name" = some name := by
  have hvalue {v : Option String} (h : v.getD "" ≠ "") : v = some (v.getD "") := by
    cases v with
    | none => exact absurd rfl h
    | some v => rfl
  constructor
  · intro h
    unfold workload at h
    dsimp only at h
    split at h
    · have hslash := congrArg (fun s => '/' ∈ s.toList) h
      simp at hslash
    · next hfound =>
      obtain ⟨hkind', hname'⟩ := not_or.1 hfound
      have hplain := plain_of_get?_info (hvalue hkind')
      have hchars := congrArg String.toList h
      simp only [String.toList_append, List.append_assoc] at hchars
      obtain ⟨hkinds, hnames⟩ := append_cons_inj hplain plain hchars
      have hkinds := String.toList_inj.1 hkinds
      have hnames := String.toList_inj.1 hnames
      rw [hvalue hkind', hvalue hname', hkinds, hnames]
      exact ⟨hnames ▸ hname', rfl, rfl⟩
  · rintro ⟨hname, htype, hresource⟩
    simp [workload, htype, hresource, hkind, hname]

end ChangePath
end WorkloadDrift
