import Mathlib.Data.List.Nodup
import Mathlib.Data.List.Perm.Subperm
import WorkloadDrift.Digest
import WorkloadDrift.Proofs.Json.Quoting

/-!
# The canonical text decides the value

Canonical texts are self-delimiting: where one value is written, no other value
can begin, and nothing but the end of a number depends on what follows. Sorting
the members makes the text the same for every order of names. So two values
without floats have one canonical text exactly when they agree up to the order
of object members.
-/
namespace WorkloadDrift.Json

theorem induct {motive : Json → Prop} (null : motive .null) (bool : ∀ b, motive (.bool b))
    (int : ∀ n, motive (.int n)) (float : ∀ x, motive (.float x)) (str : ∀ s, motive (.str s))
    (arr : ∀ items, (∀ v ∈ items, motive v) → motive (.arr items))
    (obj : ∀ members : Members, (∀ m ∈ members, motive m.2) → motive (.obj members)) :
    ∀ v, motive v
  | .null => null
  | .bool b => bool b
  | .int n => int n
  | .float x => float x
  | .str s => str s
  | .arr items => arr items fun v _ => induct null bool int float str arr obj v
  | .obj members => obj members fun m _ => induct null bool int float str arr obj m.2
termination_by v => sizeOf v
decreasing_by
  · have hmem := List.sizeOf_lt_of_mem ‹v ∈ items›
    simp only [Json.arr.sizeOf_spec]
    omega
  · have hmem := List.sizeOf_lt_of_mem ‹m ∈ members›
    have hsnd : sizeOf m.2 < sizeOf m := by
      obtain ⟨name, v⟩ := m
      simp only [Prod.mk.sizeOf_spec]
      omega
    simp only [Json.obj.sizeOf_spec]
    omega

mutual

/-- A property of a value and of every value inside it. -/
def Everywhere (p : Json → Prop) : Json → Prop
  | arr items => p (arr items) ∧ EveryItem p items
  | obj members => p (obj members) ∧ EveryMember p members
  | v => p v

def EveryItem (p : Json → Prop) : List Json → Prop
  | [] => True
  | v :: items => Everywhere p v ∧ EveryItem p items

def EveryMember (p : Json → Prop) : List (String × Json) → Prop
  | [] => True
  | (_, v) :: members => Everywhere p v ∧ EveryMember p members

end

theorem everyItem_iff {p : Json → Prop} {items : List Json} :
    EveryItem p items ↔ ∀ v ∈ items, Everywhere p v := by
  induction items with
  | nil => simp [EveryItem]
  | cons v items ih => simp [EveryItem, ih]

theorem everyMember_iff {p : Json → Prop} {members : Members} :
    EveryMember p members ↔ ∀ m ∈ members, Everywhere p m.2 := by
  induction members with
  | nil => simp [EveryMember]
  | cons m members ih => simp [EveryMember, ih]

def FloatFree (v : Json) : Prop := v.Everywhere fun u => u.kindName ≠ "float"

/-- No object in the value has two members of one name. -/
def DistinctNames (v : Json) : Prop :=
  v.Everywhere fun u => ∀ members, u = obj members → (members.map (·.1)).Nodup

section Inside

variable {items : List Json} {members : Members}

@[simp] theorem floatFree_null : null.FloatFree := by simp [FloatFree, Everywhere, kindName]

@[simp] theorem floatFree_int (n : Int) : (int n).FloatFree := by
  simp [FloatFree, Everywhere, kindName]

@[simp] theorem floatFree_str (s : String) : (str s).FloatFree := by
  simp [FloatFree, Everywhere, kindName]

@[simp] theorem floatFree_arr : (arr items).FloatFree ↔ ∀ v ∈ items, v.FloatFree := by
  simp [FloatFree, Everywhere, everyItem_iff, kindName]

@[simp] theorem floatFree_obj : (obj members).FloatFree ↔ ∀ m ∈ members, m.2.FloatFree := by
  simp [FloatFree, Everywhere, everyMember_iff, kindName]

theorem FloatFree.kindName_ne {v : Json} (hv : v.FloatFree) : v.kindName ≠ "float" := by
  cases v <;> simp_all [FloatFree, Everywhere, kindName]

@[simp] theorem distinctNames_null : null.DistinctNames := by simp [DistinctNames, Everywhere]

@[simp] theorem distinctNames_int (n : Int) : (int n).DistinctNames := by
  simp [DistinctNames, Everywhere]

@[simp] theorem distinctNames_str (s : String) : (str s).DistinctNames := by
  simp [DistinctNames, Everywhere]

@[simp] theorem distinctNames_arr : (arr items).DistinctNames ↔ ∀ v ∈ items, v.DistinctNames := by
  simp [DistinctNames, Everywhere, everyItem_iff]

@[simp] theorem distinctNames_obj : (obj members).DistinctNames ↔
    (members.map (·.1)).Nodup ∧ ∀ m ∈ members, m.2.DistinctNames := by
  simp [DistinctNames, Everywhere, everyMember_iff]

end Inside

mutual

/-- Whether two values agree, where objects may list their members in different orders. Values of
different kinds never agree. -/
def SameValue : Json → Json → Prop
  | null, null => True
  | bool a, bool b => a = b
  | int m, int n => m = n
  | float x, float y => x = y
  | str s, str t => s = t
  | arr us, arr vs => SameItems us vs
  | obj ms, obj ns => ms.length = ns.length ∧ SameMembers ms ns
  | _, _ => False

def SameItems : List Json → List Json → Prop
  | [], [] => True
  | u :: us, v :: vs => SameValue u v ∧ SameItems us vs
  | _, _ => False

/-- Whether each member of the first object has its like in the second. -/
def SameMembers : List (String × Json) → List (String × Json) → Prop
  | [], _ => True
  | (name, u) :: ms, ns => (∃ v, (name, v) ∈ ns ∧ SameValue u v) ∧ SameMembers ms ns

end

theorem sameMembers_iff {ms ns : Members} :
    SameMembers ms ns ↔ ∀ m ∈ ms, ∃ v, (m.1, v) ∈ ns ∧ SameValue m.2 v := by
  induction ms with
  | nil => simp [SameMembers]
  | cons m ms ih => simp [SameMembers, ih]

@[simp] theorem sameValue_null_left {v : Json} : SameValue null v ↔ v = null := by
  cases v <;> simp [SameValue]

@[simp] theorem sameValue_int_left {n : Int} {v : Json} : SameValue (int n) v ↔ v = int n := by
  cases v <;> simp [SameValue, eq_comm]

@[simp] theorem sameValue_str_left {s : String} {v : Json} : SameValue (str s) v ↔ v = str s := by
  cases v <;> simp [SameValue, eq_comm]

@[simp] theorem sameValue_obj {ms ns : Members} : SameValue (obj ms) (obj ns) ↔
    ms.length = ns.length ∧ ∀ m ∈ ms, ∃ v, (m.1, v) ∈ ns ∧ SameValue m.2 v := by
  rw [SameValue, sameMembers_iff]

/-! ## Writing is self-delimiting -/

/-- A text that does not go on with a digit, so that a number before it has ended. -/
def EndsNumber (cs : List Char) : Prop := ∀ c ∈ cs.head?, c.isDigit = false

theorem endsNumber_cons {c : Char} {cs : List Char} (h : c.isDigit = false) :
    EndsNumber (c :: cs) := by
  simpa [EndsNumber] using h

theorem digits_append_inj {m n : Nat} {r s : List Char} (hr : EndsNumber r) (hs : EndsNumber s)
    (h : Decimal.digits m ++ r = Decimal.digits n ++ s) : m = n ∧ r = s := by
  have run (k : Nat) {t : List Char} (ht : EndsNumber t) :
      (Decimal.digits k ++ t).takeWhile Char.isDigit = Decimal.digits k := by
    have hdigits : ∀ c ∈ Decimal.digits k, c.isDigit = true :=
      fun c hc => Nat.isDigit_of_mem_toDigits (by decide) (by decide) hc
    rw [List.takeWhile_append_of_pos hdigits]
    cases t with
    | nil => simp
    | cons c t =>
      have hc : c.isDigit = false := ht c (by simp)
      simp [hc]
  have hdigits : Decimal.digits m = Decimal.digits n := by
    rw [← run m hr, ← run n hs, h]
  have hmn : m = n := by
    rw [← Nat.ofDigitChars_ten_toDigits (n := m), ← Nat.ofDigitChars_ten_toDigits (n := n)]
    exact congrArg (Nat.ofDigitChars 10 · 0) hdigits
  refine ⟨hmn, ?_⟩
  rw [hdigits] at h
  exact List.append_cancel_left h

theorem digits_eq_cons (n : Nat) : ∃ c cs, Decimal.digits n = c :: cs ∧ c.isDigit = true := by
  cases h : Decimal.digits n with
  | nil => exact absurd h Nat.toDigits_ne_nil
  | cons c cs =>
    refine ⟨c, cs, rfl, Nat.isDigit_of_mem_toDigits (b := 10) (n := n) (by decide) (by decide) ?_⟩
    change c ∈ Decimal.digits n
    simp [h]

theorem digits_append_ne_minus (n : Nat) (r s : List Char) :
    Decimal.digits n ++ r ≠ '-' :: s := by
  obtain ⟨c, cs, hcs, hc⟩ := digits_eq_cons n
  rw [hcs, List.cons_append]
  intro h
  rw [(List.cons.inj h).1] at hc
  exact absurd hc (by decide)

theorem ofInt_append_inj {m n : Int} {r s : List Char} (hr : EndsNumber r) (hs : EndsNumber s)
    (h : Decimal.ofInt m ++ r = Decimal.ofInt n ++ s) : m = n ∧ r = s := by
  cases m with
  | ofNat m =>
    cases n with
    | ofNat n =>
      obtain ⟨rfl, rfl⟩ := digits_append_inj hr hs h
      exact ⟨rfl, rfl⟩
    | negSucc n => exact absurd h (digits_append_ne_minus m _ _)
  | negSucc m =>
    cases n with
    | ofNat n => exact absurd h.symm (digits_append_ne_minus n _ _)
    | negSucc n =>
      obtain ⟨hmn, rfl⟩ := digits_append_inj hr hs (List.cons.inj h).2
      exact ⟨by rw [Nat.succ.inj hmn], rfl⟩

theorem joinWith_cons (separator part : List Char) (parts : List (List Char)) :
    joinWith separator (part :: parts) = part ++ parts.flatMap (separator ++ ·) := by
  induction parts generalizing part with
  | nil => simp [joinWith]
  | cons next parts ih => simp [joinWith, ih]

theorem mem_joinWith {c : Char} {separator : List Char} {parts : List (List Char)}
    (h : c ∈ joinWith separator parts) : c ∈ separator ∨ ∃ part ∈ parts, c ∈ part := by
  cases parts with
  | nil => simp [joinWith] at h
  | cons part parts =>
    rw [joinWith_cons, List.mem_append, List.mem_flatMap] at h
    rcases h with hfirst | ⟨next, hnext, hc⟩
    · exact .inr ⟨part, by simp, hfirst⟩
    · rcases List.mem_append.1 hc with hseparator | hc
      · exact .inl hseparator
      · exact .inr ⟨next, by simp [hnext], hc⟩

section Joined

variable {α : Type} {write : α → List Char} {close : Char}

/-- Where an element is written, no other one can begin. -/
def Delimited (write : α → List Char) (a b : α) : Prop :=
  ∀ r s, EndsNumber r → EndsNumber s → write a ++ r = write b ++ s → a = b ∧ r = s

theorem endsNumber_followers (hclose : close.isDigit = false) (as : List α) (r : List Char) :
    EndsNumber (as.flatMap (fun a => ',' :: write a) ++ close :: r) := by
  cases as with
  | nil => exact endsNumber_cons hclose
  | cons a as => exact endsNumber_cons (by decide)

/-- Elements that each follow a comma are found again up to the closing bracket. -/
theorem followers_append_inj (hcomma : close ≠ ',') (hclose : close.isDigit = false) {as bs : List α}
    (delimited : ∀ a ∈ as, ∀ b ∈ bs, Delimited write a b) {r s : List Char}
    (h : as.flatMap (fun a => ',' :: write a) ++ close :: r =
      bs.flatMap (fun b => ',' :: write b) ++ close :: s) : as = bs ∧ r = s := by
  induction as generalizing bs with
  | nil =>
    cases bs with
    | nil => exact ⟨rfl, (List.cons.inj h).2⟩
    | cons b bs => exact absurd (List.cons.inj h).1 hcomma
  | cons a as ih =>
    cases bs with
    | nil => exact absurd (List.cons.inj h).1.symm hcomma
    | cons b bs =>
      simp only [List.flatMap_cons, List.cons_append, List.append_assoc, List.cons.injEq,
        true_and] at h
      obtain ⟨rfl, hrest⟩ := delimited a (by simp) b (by simp) _ _
        (endsNumber_followers hclose as r) (endsNumber_followers hclose bs s) h
      obtain ⟨rfl, rfl⟩ := ih (fun a ha b hb => delimited a (by simp [ha]) b (by simp [hb])) hrest
      exact ⟨rfl, rfl⟩

theorem joined_cons (write : α → List Char) (a : α) (as : List α) (t : List Char) :
    joinWith [','] ((a :: as).map write) ++ t =
      write a ++ (as.flatMap (fun a => ',' :: write a) ++ t) := by
  simp [joinWith_cons, List.flatMap_map]

theorem joined_append_inj (hcomma : close ≠ ',') (hclose : close.isDigit = false) {as bs : List α}
    (delimited : ∀ a ∈ as, ∀ b ∈ bs, Delimited write a b)
    (opened : ∀ a ∈ as ++ bs, ∀ r s, write a ++ r ≠ close :: s) {r s : List Char}
    (h : joinWith [','] (as.map write) ++ close :: r = joinWith [','] (bs.map write) ++ close :: s) :
    as = bs ∧ r = s := by
  cases as with
  | nil =>
    cases bs with
    | nil => exact ⟨rfl, (List.cons.inj h).2⟩
    | cons b bs =>
      rw [joined_cons] at h
      exact absurd h.symm (opened b (by simp) _ _)
  | cons a as =>
    cases bs with
    | nil =>
      rw [joined_cons] at h
      exact absurd h (opened a (by simp) _ _)
    | cons b bs =>
      rw [joined_cons, joined_cons] at h
      obtain ⟨rfl, hrest⟩ := delimited a (by simp) b (by simp) _ _
        (endsNumber_followers hclose as r) (endsNumber_followers hclose bs s) h
      obtain ⟨rfl, rfl⟩ := followers_append_inj hcomma hclose
        (fun a ha b hb => delimited a (by simp [ha]) b (by simp [hb])) hrest
      exact ⟨rfl, rfl⟩

end Joined

theorem compactItems_eq_map (items : List Json) : compactItems items = items.map compact := by
  induction items with
  | nil => rfl
  | cons v items ih => simp [compactItems, ih]

def compactMember (m : String × Json) : List Char := quote escapePlain m.1 ++ ':' :: compact m.2

theorem compactMembers_eq_map (members : Members) :
    compactMembers members = members.map compactMember := by
  induction members with
  | nil => rfl
  | cons m members ih => simp [compactMembers, compactMember, ih]

/-- The kind of value that a first character tells. -/
def kindOfLead : Char → String
  | 'n' => "NoneType"
  | 't' | 'f' => "bool"
  | '"' => "str"
  | '[' => "list"
  | '{' => "dict"
  | _ => "int"

theorem kindOfLead_of_isDigit {c : Char} (hc : c.isDigit = true) : kindOfLead c = "int" := by
  unfold kindOfLead
  split
  case h_7 => rfl
  all_goals exact absurd hc (by decide)

theorem compact_lead {v : Json} (hv : v.kindName ≠ "float") :
    ∃ c cs, compact v = c :: cs ∧ kindOfLead c = v.kindName ∧ c ≠ ']' := by
  cases v with
  | null => exact ⟨_, _, rfl, rfl, by decide⟩
  | bool b => cases b <;> exact ⟨_, _, rfl, rfl, by decide⟩
  | int n =>
    cases n with
    | ofNat n =>
      obtain ⟨c, cs, hcs, hc⟩ := digits_eq_cons n
      refine ⟨c, cs, hcs, kindOfLead_of_isDigit hc, ?_⟩
      rintro rfl
      exact absurd hc (by decide)
    | negSucc n => exact ⟨_, _, rfl, rfl, by decide⟩
  | float x => exact absurd rfl hv
  | str s => exact ⟨_, _, rfl, rfl, by decide⟩
  | arr items => exact ⟨_, _, rfl, rfl, by decide⟩
  | obj members => exact ⟨_, _, rfl, rfl, by decide⟩

theorem kindName_eq_of_compact_append {u v : Json} (hu : u.FloatFree) (hv : v.FloatFree)
    {r s : List Char} (h : compact u ++ r = compact v ++ s) : u.kindName = v.kindName := by
  obtain ⟨c, cs, hcs, hc, -⟩ := compact_lead hu.kindName_ne
  obtain ⟨d, ds, hds, hd, -⟩ := compact_lead hv.kindName_ne
  rw [hcs, hds] at h
  rw [← hc, ← hd, (List.cons.inj h).1]

theorem compact_append_ne_bracket {v : Json} (hv : v.FloatFree) (r s : List Char) :
    compact v ++ r ≠ ']' :: s := by
  obtain ⟨c, cs, hcs, -, hc⟩ := compact_lead hv.kindName_ne
  rw [hcs]
  exact fun h => hc (List.cons.inj h).1

theorem compactMember_delimited {m n : String × Json} (delimited : Delimited compact m.2 n.2) :
    Delimited compactMember m n := by
  intro r s hr hs h
  simp only [compactMember, List.append_assoc, List.cons_append] at h
  obtain ⟨hname, hrest⟩ := quote_append_inj h
  obtain ⟨hvalue, rfl⟩ := delimited r s hr hs (List.cons.inj hrest).2
  exact ⟨Prod.ext hname hvalue, rfl⟩

/-- A written value without floats fixes both the value and where it ends. -/
theorem compact_delimited {u v : Json} (hu : u.FloatFree) (hv : v.FloatFree) :
    Delimited compact u v := by
  intro r s hr hs h
  induction u using induct generalizing v r s with
  | null =>
    have hkind := kindName_eq_of_compact_append hu hv h
    cases v <;> simp_all [kindName, compact]
  | bool b =>
    have hkind := kindName_eq_of_compact_append hu hv h
    cases v with
    | bool b' => cases b <;> cases b' <;> simp_all [compact, writeBool]
    | null | int | float | str | arr | obj => simp [kindName] at hkind
  | int n =>
    have hkind := kindName_eq_of_compact_append hu hv h
    cases v with
    | int n' =>
      obtain ⟨rfl, rfl⟩ := ofInt_append_inj hr hs h
      exact ⟨rfl, rfl⟩
    | null | bool | float | str | arr | obj => simp [kindName] at hkind
  | float x => exact absurd rfl hu.kindName_ne
  | str t =>
    have hkind := kindName_eq_of_compact_append hu hv h
    cases v with
    | str t' =>
      obtain ⟨rfl, rfl⟩ := quote_append_inj h
      exact ⟨rfl, rfl⟩
    | null | bool | int | float | arr | obj => simp [kindName] at hkind
  | arr items ih =>
    have hkind := kindName_eq_of_compact_append hu hv h
    cases v with
    | arr items' =>
      simp only [compact, compactItems_eq_map, List.cons_append, List.append_assoc,
        List.nil_append, List.cons.injEq, true_and] at h
      have delimited : ∀ a ∈ items, ∀ b ∈ items', Delimited compact a b :=
        fun a ha b hb r s hr hs h => ih a ha (floatFree_arr.1 hu a ha) (floatFree_arr.1 hv b hb) r s hr hs h
      have opened : ∀ a ∈ items ++ items', ∀ r s, compact a ++ r ≠ ']' :: s := by
        intro a ha
        rcases List.mem_append.1 ha with ha | ha
        · exact compact_append_ne_bracket (floatFree_arr.1 hu a ha)
        · exact compact_append_ne_bracket (floatFree_arr.1 hv a ha)
      obtain ⟨rfl, rfl⟩ := joined_append_inj (by decide) (by decide) delimited opened h
      exact ⟨rfl, rfl⟩
    | null | bool | int | float | str | obj => simp [kindName] at hkind
  | obj members ih =>
    have hkind := kindName_eq_of_compact_append hu hv h
    cases v with
    | obj members' =>
      simp only [compact, compactMembers_eq_map, List.cons_append, List.append_assoc,
        List.nil_append, List.cons.injEq, true_and] at h
      have delimited : ∀ m ∈ members, ∀ n ∈ members', Delimited compactMember m n :=
        fun m hm n hn => compactMember_delimited fun r s hr hs h =>
          ih m hm (floatFree_obj.1 hu m hm) (floatFree_obj.1 hv n hn) r s hr hs h
      have opened : ∀ m ∈ members ++ members', ∀ r s, compactMember m ++ r ≠ '}' :: s := by
        intro m _ r s h
        exact absurd (List.cons.inj h).1 (by decide)
      obtain ⟨rfl, rfl⟩ := joined_append_inj (by decide) (by decide) delimited opened h
      exact ⟨rfl, rfl⟩
    | null | bool | int | float | str | arr => simp [kindName] at hkind

theorem compact_inj {u v : Json} (hu : u.FloatFree) (hv : v.FloatFree)
    (h : compact u = compact v) : u = v := by
  have ended : EndsNumber [] := by simp [EndsNumber]
  exact (compact_delimited hu hv [] [] ended ended (by rw [h])).1

/-! ## Sorting forgets the order of members -/

def sortMembers (members : Members) : Members := members.foldr insertMember []

theorem insertMember_perm (m : String × Json) (members : Members) :
    (insertMember m members).Perm (m :: members) := by
  induction members with
  | nil => rfl
  | cons n members ih =>
    unfold insertMember
    split
    · rfl
    · exact (ih.cons n).trans (.swap m n members)

theorem sortMembers_perm (members : Members) : (sortMembers members).Perm members := by
  induction members with
  | nil => rfl
  | cons m members ih => exact (insertMember_perm m _).trans (ih.cons m)

theorem pairwise_insertMember {m : String × Json} {members : Members}
    (h : members.Pairwise fun a b => a.1 ≤ b.1) :
    (insertMember m members).Pairwise fun a b => a.1 ≤ b.1 := by
  induction members with
  | nil => simp [insertMember]
  | cons n members ih =>
    obtain ⟨hn, hmembers⟩ := List.pairwise_cons.1 h
    unfold insertMember
    split
    · next hle =>
      refine List.pairwise_cons.2 ⟨fun k hk => ?_, h⟩
      rcases List.mem_cons.1 hk with rfl | hk
      · exact hle
      · exact String.le_trans hle (hn k hk)
    · next hnle =>
      refine List.pairwise_cons.2 ⟨fun k hk => ?_, ih hmembers⟩
      rcases List.mem_cons.1 ((insertMember_perm m members).mem_iff.1 hk) with rfl | hk
      · exact (String.le_total _ _).resolve_left hnle
      · exact hn k hk

theorem pairwise_sortMembers (members : Members) :
    (sortMembers members).Pairwise fun a b => a.1 ≤ b.1 := by
  induction members with
  | nil => simp [sortMembers]
  | cons m members ih => exact pairwise_insertMember ih

/-- Members of distinct names have one order by their names. -/
theorem sortMembers_eq_iff {ms ns : Members} (distinct : (ms.map (·.1)).Nodup) :
    sortMembers ms = sortMembers ns ↔ ms.Perm ns := by
  constructor
  · intro h
    exact (sortMembers_perm ms).symm.trans (h ▸ sortMembers_perm ns)
  · intro h
    have hperm : (sortMembers ms).Perm (sortMembers ns) :=
      (sortMembers_perm ms).trans (h.trans (sortMembers_perm ns).symm)
    refine hperm.eq_of_pairwise ?_ (pairwise_sortMembers ms) (pairwise_sortMembers ns)
    intro a b ha hb hab hba
    have ha' : a ∈ ms := (sortMembers_perm ms).mem_iff.1 ha
    have hb' : b ∈ ms := h.mem_iff.2 ((sortMembers_perm ns).mem_iff.1 hb)
    exact List.inj_on_of_nodup_map distinct ha' hb' (String.le_antisymm hab hba)

theorem perm_iff_subset_of_nodup {α : Type} {l l' : List α} (hl : l.Nodup) :
    l.Perm l' ↔ l.length = l'.length ∧ ∀ a ∈ l, a ∈ l' := by
  constructor
  · exact fun h => ⟨h.length_eq, fun a ha => h.mem_iff.1 ha⟩
  · rintro ⟨hlen, hsub⟩
    exact (List.subperm_of_subset hl hsub).perm_of_length_le (Nat.le_of_eq hlen.symm)

theorem sortedItems_eq_map (items : List Json) : sortedItems items = items.map sorted := by
  induction items with
  | nil => rfl
  | cons v items ih => simp [sortedItems, ih]

theorem sortedMembers_eq (members : Members) :
    sortedMembers members = sortMembers (members.map fun m => (m.1, sorted m.2)) := by
  induction members with
  | nil => rfl
  | cons m members ih => simp [sortedMembers, sortMembers, ih]

theorem sameItems_iff {us vs : List Json}
    (h : ∀ u ∈ us, ∀ v, sorted u = sorted v ↔ SameValue u v) :
    us.map sorted = vs.map sorted ↔ SameItems us vs := by
  induction us generalizing vs with
  | nil => cases vs <;> simp [SameItems]
  | cons u us ih =>
    cases vs with
    | nil => simp [SameItems]
    | cons v vs =>
      have htail := @ih vs fun w hw => h w (by simp [hw])
      simp [SameItems, htail, h u (by simp) v]

/-- Sorting tells apart exactly the values that do not agree. -/
theorem sorted_eq_iff {u v : Json} (hu : u.DistinctNames) : sorted u = sorted v ↔ SameValue u v := by
  induction u using induct generalizing v with
  | null | bool | int | float | str => cases v <;> simp [sorted, SameValue]
  | arr items ih =>
    cases v with
    | arr items' =>
      have hitems := distinctNames_arr.1 hu
      simp only [sorted, arr.injEq, sortedItems_eq_map, SameValue]
      exact sameItems_iff fun u hmem v => ih u hmem (hitems u hmem)
    | null | bool | int | float | str | obj => simp [sorted, SameValue]
  | obj members ih =>
    cases v with
    | obj members' =>
      obtain ⟨hnodup, hmembers⟩ := distinctNames_obj.1 hu
      have hnames : ((members.map fun m => (m.1, sorted m.2)).map (·.1)).Nodup := by
        simpa [Function.comp_def] using hnodup
      have hlike (m : String × Json) (hm : m ∈ members) :
          (m.1, sorted m.2) ∈ members'.map (fun n => (n.1, sorted n.2)) ↔
            ∃ v, (m.1, v) ∈ members' ∧ SameValue m.2 v := by
        simp only [List.mem_map, Prod.exists, Prod.mk.injEq]
        constructor
        · rintro ⟨name, v, hv, rfl, hsorted⟩
          exact ⟨v, hv, (ih m hm (hmembers m hm)).1 hsorted.symm⟩
        · rintro ⟨v, hv, hsame⟩
          exact ⟨m.1, v, hv, rfl, ((ih m hm (hmembers m hm)).2 hsame).symm⟩
      simp only [sorted, obj.injEq, sortedMembers_eq, sameValue_obj]
      rw [sortMembers_eq_iff hnames, perm_iff_subset_of_nodup (List.Nodup.of_map _ hnames)]
      simp only [List.length_map, List.forall_mem_map]
      exact and_congr_right fun _ => forall₂_congr hlike
    | null | bool | int | float | str | arr => simp [sorted, SameValue]

theorem mem_sortedMembers {members : Members} {m : String × Json} :
    m ∈ sortedMembers members ↔ ∃ n ∈ members, (n.1, sorted n.2) = m := by
  rw [sortedMembers_eq, (sortMembers_perm _).mem_iff, List.mem_map]

theorem everywhere_sorted {p : Json → Prop} (hp : ∀ v, p v → p (sorted v)) {v : Json}
    (h : v.Everywhere p) : (sorted v).Everywhere p := by
  induction v using induct with
  | null | bool | int | float | str => exact h
  | arr items ih =>
    obtain ⟨hself, hitems⟩ := h
    refine ⟨hp _ hself, everyItem_iff.2 ?_⟩
    rw [sortedItems_eq_map, List.forall_mem_map]
    exact fun v hv => ih v hv (everyItem_iff.1 hitems v hv)
  | obj members ih =>
    obtain ⟨hself, hmembers⟩ := h
    refine ⟨hp _ hself, everyMember_iff.2 fun m hm => ?_⟩
    obtain ⟨n, hn, rfl⟩ := mem_sortedMembers.1 hm
    exact ih n hn (everyMember_iff.1 hmembers n hn)

theorem floatFree_sorted {v : Json} (hv : v.FloatFree) : (sorted v).FloatFree := by
  refine everywhere_sorted (fun u hu => ?_) hv
  cases u <;> exact hu

theorem distinctNames_sorted {v : Json} (hv : v.DistinctNames) : (sorted v).DistinctNames := by
  refine everywhere_sorted (fun u hu members hsorted => ?_) hv
  cases u with
  | obj members' =>
    have hnames := hu members' rfl
    have hperm : (members.map (·.1)).Perm (members'.map (·.1)) := by
      rw [← obj.inj hsorted, sortedMembers_eq]
      have h := (sortMembers_perm (members'.map fun m => (m.1, sorted m.2))).map (·.1)
      simpa [Function.comp_def] using h
    exact hperm.nodup_iff.2 hnames
  | null | bool | int | float | str | arr => simp [sorted] at hsorted

theorem sameValue_sorted (v : Json) : SameValue v (sorted v) := by
  induction v using induct with
  | null | bool | int | float | str => simp [sorted, SameValue]
  | arr items ih =>
    rw [sorted, sortedItems_eq_map, SameValue]
    induction items with
    | nil => trivial
    | cons v items ihItems =>
      exact ⟨ih v (by simp), ihItems fun u hu => ih u (by simp [hu])⟩
  | obj members ih =>
    rw [sorted, sameValue_obj]
    refine ⟨?_, fun m hm => ⟨sorted m.2, mem_sortedMembers.2 ⟨m, hm, rfl⟩, ih m hm⟩⟩
    rw [sortedMembers_eq, (sortMembers_perm _).length_eq, List.length_map]

/-- Values without floats have one canonical text exactly when they agree up to the order of
object members. -/
theorem canonical_eq_iff {u v : Json} (hu : u.FloatFree) (hv : v.FloatFree)
    (distinct : u.DistinctNames) : u.canonical = v.canonical ↔ SameValue u v := by
  rw [← sorted_eq_iff distinct, canonical, canonical, String.ofList_inj]
  constructor
  · exact compact_inj (floatFree_sorted hu) (floatFree_sorted hv)
  · exact fun h => by rw [h]

theorem isFinite_of_floatFree {v : Json} (hv : v.FloatFree) : v.isFinite = true := by
  induction v using induct with
  | null | bool | int | str => rfl
  | float x => exact absurd rfl hv.kindName_ne
  | arr items ih =>
    have hitems : ∀ v ∈ items, v.isFinite = true := fun v hmem => ih v hmem (floatFree_arr.1 hv v hmem)
    rw [isFinite]
    clear ih hv
    induction items with
    | nil => rfl
    | cons v items ihItems => simp_all [finiteItems]
  | obj members ih =>
    have hmembers : ∀ m ∈ members, m.2.isFinite = true :=
      fun m hmem => ih m hmem (floatFree_obj.1 hv m hmem)
    rw [isFinite]
    clear ih hv
    induction members with
    | nil => rfl
    | cons m members ihMembers => simp_all [finiteMembers]

end WorkloadDrift.Json
