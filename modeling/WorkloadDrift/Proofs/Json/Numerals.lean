import WorkloadDrift.Proofs.Json.Canonical
import WorkloadDrift.Proofs.Json.Limits

/-!
# Integers read back

An integer of no more digits than are read is taken from where it is written, as
long as nothing behind it goes on with the number. No integer that is read at all
has more digits.
-/
namespace WorkloadDrift

/-- Whether an integer has no more digits than are read. -/
def Decimal.Readable (n : Int) : Prop := n.natAbs < 10 ^ digitLimit

namespace Decimal

theorem length_digits_le {n : Nat} (h : n < 10 ^ digitLimit) : (digits n).length ≤ digitLimit :=
  (Nat.length_toDigits_le_iff (by decide) (by decide)).2 h

theorem ofDigits_digits (n : Nat) : ofDigits (digits n) = n := Nat.ofDigitChars_ten_toDigits

/-- Only zero is written with a leading zero. -/
theorem head?_digits_ne_zero {n : Nat} (h : n ≠ 0) : (digits n).head? ≠ some '0' := by
  induction n using Nat.strongRecOn with
  | ind n ih =>
    rcases Nat.lt_or_ge n 10 with hlt | hge
    · have hdigits : ∀ d : Fin 10, d.val ≠ 0 → (digits d.val).head? ≠ some '0' := by decide
      exact hdigits ⟨n, hlt⟩ h
    · have hquotient := ih (n / 10) (by omega) (by omega)
      rw [digits, Nat.toDigits_of_base_le (by decide) hge, List.head?_append]
      obtain ⟨c, cs, hcs, -⟩ := Json.digits_eq_cons (n / 10)
      simp only [digits] at hcs hquotient
      simpa [hcs] using hquotient

/-- What a run of digits stands for has no more digits than the run. -/
theorem foldl_digits_lt {α : Type} {value : α → Nat} {ds : List α} (h : ∀ d ∈ ds, value d < 10)
    (n : Nat) : ds.foldl (fun n d => 10 * n + value d) n < 10 ^ ds.length * (n + 1) := by
  induction ds generalizing n with
  | nil => simp
  | cons d ds ih =>
    have hd : 10 * n + value d + 1 ≤ 10 * (n + 1) := by
      have := h d (by simp)
      omega
    calc (d :: ds).foldl (fun n d => 10 * n + value d) n
        < 10 ^ ds.length * (10 * n + value d + 1) := ih (fun e he => h e (by simp [he])) _
      _ ≤ 10 ^ ds.length * (10 * (n + 1)) := Nat.mul_le_mul_left _ hd
      _ = 10 ^ (d :: ds).length * (n + 1) := by rw [List.length_cons, Nat.pow_succ, Nat.mul_assoc]

theorem ofDigits_lt {ds : List Char} (h : ∀ c ∈ ds, c.isDigit) : ofDigits ds < 10 ^ ds.length := by
  have hvalue : ∀ c ∈ ds, c.toNat - '0'.toNat < 10 := by
    intro c hc
    have hdigit := h c hc
    simp only [Char.isDigit, Bool.and_eq_true, decide_eq_true_eq, UInt32.le_iff_toNat_le] at hdigit
    have hupper : c.toNat ≤ 57 := hdigit.2
    have hzero : '0'.toNat = 48 := rfl
    omega
  have hlt := foldl_digits_lt hvalue 0
  rwa [Nat.zero_add, Nat.mul_one] at hlt

theorem readable_zero : Readable 0 := Nat.pow_pos (by decide)

theorem readable_of_length {n : Nat} {negative : Bool} {length : Nat} (hn : n < 10 ^ length)
    (hlength : length ≤ digitLimit) : Readable (if negative then -n else n) := by
  have hlt : n < 10 ^ digitLimit := Nat.lt_of_lt_of_le hn (Nat.pow_le_pow_right (by decide) hlength)
  cases negative <;> simpa [Readable] using hlt

end Decimal

namespace Json

/-- A text that does not go on with what a number may go on with. -/
def EndsValue (cs : List Char) : Prop :=
  ∀ c ∈ cs.head?, c.isDigit = false ∧ c ≠ '.' ∧ c ≠ 'e' ∧ c ≠ 'E'

theorem span_digits {n : Nat} {rest : List Char} (h : EndsValue rest) :
    (Decimal.digits n ++ rest).span Char.isDigit = (Decimal.digits n, rest) := by
  have hdigits : ∀ c ∈ Decimal.digits n, c.isDigit = true :=
    fun c hc => Nat.isDigit_of_mem_toDigits (by decide) (by decide) hc
  rw [List.span_eq_takeWhile_dropWhile, List.takeWhile_append_of_pos hdigits,
    List.dropWhile_append_of_pos hdigits]
  cases rest with
  | nil => simp
  | cons c rest => simp [(h c (by simp)).1]

theorem takeWhole_digits {n : Nat} {rest : List Char} (h : EndsValue rest) :
    takeWhole (Decimal.digits n ++ rest) = some (Decimal.digits n, rest) := by
  by_cases hn : n = 0
  · subst hn
    rfl
  · obtain ⟨c, cs, hcs, hc⟩ := digits_eq_cons n
    have hzero : c ≠ '0' := by
      have := Decimal.head?_digits_ne_zero hn
      simpa [hcs] using this
    have hspan := span_digits (n := n) h
    rw [hcs, List.cons_append] at hspan ⊢
    unfold takeWhole
    split
    · next heq => exact absurd (List.cons.inj heq).1 hzero
    · rw [hspan]
      simp [hc]

theorem takeFraction_eq_none {rest : List Char} (h : EndsValue rest) : takeFraction rest = none := by
  cases rest with
  | nil => rfl
  | cons c rest =>
    unfold takeFraction
    split
    · next heq => exact absurd (List.cons.inj heq).1 (h c (by simp)).2.1
    · rfl

theorem takeExponent_eq_none {rest : List Char} (h : EndsValue rest) : takeExponent rest = none := by
  cases rest with
  | nil => rfl
  | cons c rest =>
    obtain ⟨-, -, he, hE⟩ := h c (by simp)
    simp [takeExponent, he, hE]

theorem integer_digits {n : Nat} (h : n < 10 ^ Decimal.digitLimit) (negative : Bool) :
    integer negative (Decimal.digits n) = .scalar (.int (if negative then -n else n)) := by
  rw [integer, if_neg (Nat.not_lt.2 (Decimal.length_digits_le h)), Decimal.ofDigits_digits]

theorem takeNumber_minus {n : Nat} (hn : n < 10 ^ Decimal.digitLimit) {rest : List Char}
    (h : EndsValue rest) :
    takeNumber ('-' :: (Decimal.digits n ++ rest)) = some (.scalar (.int (-n)), rest) := by
  unfold takeNumber
  simp [takeWhole_digits h, takeFraction_eq_none h, takeExponent_eq_none h, integer_digits hn]

theorem takeNumber_ofInt {n : Int} (hn : Decimal.Readable n) {rest : List Char}
    (h : EndsValue rest) : takeNumber (Decimal.ofInt n ++ rest) = some (.scalar (.int n), rest) := by
  cases n with
  | ofNat n =>
    have htoken := integer_digits (n := n) hn false
    unfold takeNumber
    split
    next negative unsigned hsplit =>
    split at hsplit
    · next heq => exact absurd heq (digits_append_ne_minus n rest _)
    · cases hsplit
      simp [Decimal.ofInt, takeWhole_digits h, takeFraction_eq_none h, takeExponent_eq_none h,
        htoken]
  | negSucc n =>
    rw [Decimal.Readable, Int.natAbs_negSucc] at hn
    exact takeNumber_minus hn h

theorem readable_of_integer {negative : Bool} {ds : List Char} {n : Int}
    (hdigits : ∀ c ∈ ds, c.isDigit) (h : integer negative ds = .scalar (.int n)) :
    Decimal.Readable n := by
  unfold integer at h
  split at h
  · cases h
  · next hlimit =>
    cases h
    exact Decimal.readable_of_length (Decimal.ofDigits_lt hdigits) (Nat.not_lt.1 hlimit)

/-- Whether no integer in the value has more digits than are read. -/
def ReadableIntegers (v : Json) : Prop :=
  v.Everywhere fun u => ∀ n, u = int n → Decimal.Readable n

section Inside

variable {items : List Json} {members : Members}

@[simp] theorem readableIntegers_null : null.ReadableIntegers := by
  simp [ReadableIntegers, Everywhere]

@[simp] theorem readableIntegers_int {n : Int} :
    (int n).ReadableIntegers ↔ Decimal.Readable n := by
  simp [ReadableIntegers, Everywhere]

@[simp] theorem readableIntegers_str (s : String) : (str s).ReadableIntegers := by
  simp [ReadableIntegers, Everywhere]

@[simp] theorem readableIntegers_arr :
    (arr items).ReadableIntegers ↔ ∀ v ∈ items, v.ReadableIntegers := by
  simp [ReadableIntegers, Everywhere, everyItem_iff]

@[simp] theorem readableIntegers_obj :
    (obj members).ReadableIntegers ↔ ∀ m ∈ members, m.2.ReadableIntegers := by
  simp [ReadableIntegers, Everywhere, everyMember_iff]

end Inside

theorem readableIntegers_sorted {v : Json} (hv : v.ReadableIntegers) :
    (sorted v).ReadableIntegers := by
  refine everywhere_sorted (fun u hu n hsorted => ?_) hv
  cases u <;> simp_all [sorted]

theorem readableIntegers_of_takeToken {cs : List Char} {v : Json}
    (h : (takeToken cs).1 = .scalar v) : v.ReadableIntegers := by
  rcases takeToken_integer cs with ⟨negative, whole, htoken, -, hdigits⟩ | ⟨-, hnone⟩
  · rw [htoken] at h
    have hint : ∃ n, v = .int n := by
      unfold integer at h
      split at h
      · cases h
      · exact ⟨_, (Token.scalar.inj h).symm⟩
    obtain ⟨n, rfl⟩ := hint
    exact readableIntegers_int.2 (readable_of_integer hdigits h)
  · rcases hnone v h with rfl | ⟨b, rfl⟩ | ⟨x, rfl⟩ <;> simp [ReadableIntegers, Everywhere]

/-! ## What the automaton holds -/

def Frame.Readable : Frame → Prop
  | .array before => ∀ v ∈ before, v.ReadableIntegers
  | .object before _ => ∀ m ∈ before, m.2.ReadableIntegers

def State.Readable : State → Prop
  | .awaitValue stack | .awaitFirstItem stack | .awaitFirstName stack => ∀ f ∈ stack, f.Readable
  | .awaitName members stack | .awaitColon members _ stack | .afterMember members stack =>
    (∀ m ∈ members, m.2.ReadableIntegers) ∧ ∀ f ∈ stack, f.Readable
  | .afterItem items stack => (∀ v ∈ items, v.ReadableIntegers) ∧ ∀ f ∈ stack, f.Readable
  | .finished v => v.ReadableIntegers

theorem Members.mem_set {name : String} {v : Json} {members : Members} {m : String × Json}
    (h : m ∈ members.set name v) : m.2 = v ∨ m ∈ members := by
  induction members with
  | nil =>
    left
    rw [List.mem_singleton.1 h]
  | cons n members ih =>
    unfold Members.set at h
    split at h
    · rcases List.mem_cons.1 h with rfl | h
      · exact .inl rfl
      · exact .inr (List.mem_cons_of_mem _ h)
    · rcases List.mem_cons.1 h with rfl | h
      · exact .inr List.mem_cons_self
      · exact (ih h).imp_right (List.mem_cons_of_mem _)

theorem State.readable_supply {v : Json} {stack : List Frame} (hv : v.ReadableIntegers)
    (hstack : ∀ f ∈ stack, f.Readable) : (State.supply v stack).Readable := by
  cases stack with
  | nil => exact hv
  | cons frame stack =>
    obtain ⟨hframe, hrest⟩ := List.forall_mem_cons.1 hstack
    cases frame with
    | array before => exact ⟨List.forall_mem_cons.2 ⟨hv, hframe⟩, hrest⟩
    | object before name =>
      refine ⟨fun m hm => ?_, hrest⟩
      rcases Members.mem_set hm with heq | hm
      · exact heq ▸ hv
      · exact hframe m hm

theorem State.readable_begin {stack : List Frame} {t : Placed} {s : State}
    (hstack : ∀ f ∈ stack, f.Readable) (ht : ∀ v, t.token = .scalar v → v.ReadableIntegers)
    (h : State.begin stack t = .ok s) : s.Readable := by
  unfold State.begin at h
  split at h
  · next v hv =>
    cases h
    exact readable_supply (ht v hv) hstack
  · cases h
    exact readable_supply (readableIntegers_str _) hstack
  · cases h
    exact hstack
  · cases h
    exact hstack
  all_goals cases h

theorem State.readable_readName {members : Members} {stack : List Frame} {t : Placed} {s : State}
    (hmembers : ∀ m ∈ members, m.2.ReadableIntegers) (hstack : ∀ f ∈ stack, f.Readable)
    (h : State.readName members stack t = .ok s) : s.Readable := by
  unfold State.readName at h
  split at h
  · cases h
    exact ⟨hmembers, hstack⟩
  all_goals cases h

/-- A step keeps readable integers and takes in the token's. -/
theorem State.readable_step {s s' : State} {t : Placed} (hs : s.Readable)
    (ht : ∀ v, t.token = .scalar v → v.ReadableIntegers) (h : s.step t = .ok s') : s'.Readable := by
  unfold State.step at h
  split at h
  case h_1 => exact readable_begin hs ht h
  case h_2 =>
    split at h
    · cases h
      exact readable_supply (by simp) hs
    · exact readable_begin (List.forall_mem_cons.2 ⟨by simp [Frame.Readable], hs⟩) ht h
  case h_3 =>
    split at h
    · cases h
      exact readable_supply (by simp) hs
    · exact readable_readName (by simp) hs h
  case h_4 => exact readable_readName hs.1 hs.2 h
  case h_5 =>
    split at h
    · cases h
      exact List.forall_mem_cons.2 ⟨hs.1, hs.2⟩
    · cases h
  case h_6 =>
    split at h
    · cases h
      exact List.forall_mem_cons.2 ⟨hs.1, hs.2⟩
    · cases h
      exact readable_supply (by simpa using hs.1) hs.2
    · cases h
  case h_7 =>
    split at h
    · cases h
      exact hs
    · cases h
      exact readable_supply (by simpa using hs.1) hs.2
    · cases h
  case h_8 => cases h

theorem State.readable_foldlM {ts : List Placed} {s s' : State} (hs : s.Readable)
    (hts : ∀ t ∈ ts, ∀ v, t.token = .scalar v → v.ReadableIntegers)
    (h : ts.foldlM State.step s = .ok s') : s'.Readable := by
  induction ts generalizing s with
  | nil =>
    cases h
    exact hs
  | cons t ts ih =>
    obtain ⟨ht, hts⟩ := List.forall_mem_cons.1 hts
    obtain ⟨next, hstep, hrest⟩ := Except.bind_eq_ok_iff.1 h
    exact ih (readable_step hs ht hstep) hts hrest

/-- No integer in a value that is read has more digits than are read. -/
theorem readableIntegers_of_ofChars {text : List Char} {v : Json} (h : ofChars text = .ok v) :
    v.ReadableIntegers := by
  have htokens : ofTokens (tokens text) = .ok v := by
    unfold ofChars at h
    split at h
    · cases h
    · split at h
      · next hread => rw [hread, Except.ok.inj h]
      all_goals cases h
  obtain ⟨s, hrun, hfinish⟩ := Except.bind_eq_ok_iff.1 htokens
  have hscalars : ∀ t ∈ tokens text, ∀ v, t.token = .scalar v → v.ReadableIntegers := by
    intro t ht v hv
    exact readableIntegers_of_takeToken ((mem_tokens ht).2 ▸ hv)
  have hstart : (State.awaitValue []).Readable := by simp [State.Readable]
  have hs : s.Readable := State.readable_foldlM hstart hscalars hrun
  unfold State.finish at hfinish
  split at hfinish
  · cases hfinish
    exact hs
  all_goals cases hfinish

end Json
end WorkloadDrift
