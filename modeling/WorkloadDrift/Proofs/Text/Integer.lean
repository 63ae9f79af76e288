import Mathlib.Data.List.TakeWhile
import WorkloadDrift.Text.Integer

/-!
# Which texts are integers

An integer is written with digits of any script and single underscores between them. A
sign may stand right before the first digit, and spacing around the whole. The number of
its digits is limited, that of the other characters is not.
-/
namespace WorkloadDrift.Text

/-- Digits with single underscores between them, and how many digits there are. -/
inductive Numeral : List Char → Nat → Prop
  | one {c : Char} (h : isDecimalDigit c) : Numeral [c] 1
  | next {c : Char} {cs : List Char} {digits : Nat} (h : isDecimalDigit c)
      (rest : Numeral cs digits) : Numeral (c :: cs) (digits + 1)
  | apart {c : Char} {cs : List Char} {digits : Nat} (h : isDecimalDigit c)
      (rest : Numeral cs digits) : Numeral (c :: '_' :: cs) (digits + 1)

/-- The parts of the text of an integer: spacing, a sign or none, the numeral, spacing. -/
structure SpellsInteger (before sign numeral after : List Char) : Prop where
  before : ∀ c ∈ before, isSpacing c
  sign : sign = [] ∨ sign = ['+'] ∨ sign = ['-']
  numeral : ∃ digits ≤ Decimal.digitLimit, Numeral numeral digits
  after : ∀ c ∈ after, isSpacing c

/-- A text of an integer, with as many digits as are read at most. -/
def IsInteger (text : List Char) : Prop :=
  ∃ before sign numeral after, SpellsInteger before sign numeral after ∧
    text = before ++ (sign ++ (numeral ++ after))

/-! ## Characters -/

theorem not_isSpacing_of_digit {c : Char} (h : isDecimalDigit c) : ¬ isSpacing c := by
  have hzero : ∃ z ∈ digitZeros, z ≤ c.toNat ∧ c.toNat < z + 10 := by
    simpa [isDecimalDigit, digitValue?] using h
  obtain ⟨z, hz, hle, hlt⟩ := hzero
  obtain ⟨k, hk⟩ := Nat.exists_eq_add_of_le hle
  have hk10 : k < 10 := by omega
  unfold isSpacing
  rw [hk]
  clear h hle hlt hk c
  revert k z
  decide +kernel

theorem ne_underscore_of_spacing {c : Char} (h : isSpacing c) : c ≠ '_' := by
  rintro rfl
  revert h
  decide

theorem ne_underscore_of_digit {c : Char} (h : isDecimalDigit c) : c ≠ '_' := by
  rintro rfl
  revert h
  decide

/-! ## Numerals -/

theorem underscoresSeparate_cons {c : Char} (hc : c ≠ '_') (cs : List Char) :
    underscoresSeparate (c :: cs) = underscoresSeparate cs := by
  rw [underscoresSeparate]
  · exact fun heq => absurd heq hc
  · exact fun _ heq => absurd heq hc

theorem underscoresSeparate_underscore {c : Char} (hc : c ≠ '_') (cs : List Char) :
    underscoresSeparate ('_' :: c :: cs) = underscoresSeparate (c :: cs) := by
  rw [underscoresSeparate]
  · simp
  · rintro _ - heq
    exact hc (List.cons.inj heq).1

theorem length_digits_cons {c : Char} (hc : isDecimalDigit c) (cs : List Char) :
    ((c :: cs).filterMap digitValue?).length = (cs.filterMap digitValue?).length + 1 := by
  obtain ⟨d, hd⟩ := Option.isSome_iff_exists.1 hc
  rw [List.filterMap_cons_some hd, List.length_cons]

theorem digits_underscore (cs : List Char) :
    ('_' :: cs).filterMap digitValue? = cs.filterMap digitValue? :=
  List.filterMap_cons_none (by decide)

namespace Numeral

variable {cs : List Char} {digits : Nat}

theorem exists_head (h : Numeral cs digits) : ∃ c rest, cs = c :: rest ∧ isDecimalDigit c := by
  cases h with
  | one hc => exact ⟨_, _, rfl, hc⟩
  | next hc _ => exact ⟨_, _, rfl, hc⟩
  | apart hc _ => exact ⟨_, _, rfl, hc⟩

theorem isNumeral (h : Numeral cs digits) : ∀ c ∈ cs, isDecimalDigit c || c = '_' := by
  induction h with
  | one hc => simp [hc]
  | next hc _ ih => simpa [hc] using ih
  | apart hc _ ih => simpa [hc] using ih

theorem underscoresSeparate (h : Numeral cs digits) : Text.underscoresSeparate cs := by
  induction h with
  | one hc => rw [underscoresSeparate_cons (ne_underscore_of_digit hc), Text.underscoresSeparate]
  | next hc _ ih => rwa [underscoresSeparate_cons (ne_underscore_of_digit hc)]
  | apart hc rest ih =>
    obtain ⟨d, cs, rfl, hd⟩ := rest.exists_head
    rwa [underscoresSeparate_cons (ne_underscore_of_digit hc),
      underscoresSeparate_underscore (ne_underscore_of_digit hd)]

theorem length_digits (h : Numeral cs digits) : (cs.filterMap digitValue?).length = digits := by
  induction h with
  | one hc => rw [length_digits_cons hc, List.filterMap_nil, List.length_nil]
  | next hc _ ih => rw [length_digits_cons hc, ih]
  | apart hc _ ih => rw [length_digits_cons hc, digits_underscore, ih]

theorem pos (h : Numeral cs digits) : 0 < digits := by
  cases h <;> exact Nat.succ_pos _

/-- A digit before a text whose underscores are separate begins a numeral. -/
theorem of_separate {c : Char} {cs : List Char} (hc : isDecimalDigit c)
    (hall : ∀ d ∈ cs, isDecimalDigit d || d = '_') (hseparate : Text.underscoresSeparate cs) :
    Numeral (c :: cs) ((c :: cs).filterMap digitValue?).length := by
  rw [length_digits_cons hc]
  match cs with
  | [] => exact .one hc
  | d :: cs =>
    obtain ⟨hd, hrest⟩ := List.forall_mem_cons.1 hall
    by_cases hdigit : isDecimalDigit d
    · rw [underscoresSeparate_cons (ne_underscore_of_digit hdigit)] at hseparate
      exact .next hc (of_separate hdigit hrest hseparate)
    · obtain rfl : d = '_' := by simpa [hdigit] using hd
      rw [digits_underscore]
      match cs with
      | [] => cases hseparate
      | e :: cs =>
        obtain ⟨he, hrest⟩ := List.forall_mem_cons.1 hrest
        have hne : e ≠ '_' := by
          rintro rfl
          cases hseparate
        rw [underscoresSeparate_underscore hne, underscoresSeparate_cons hne] at hseparate
        exact .apart hc (of_separate (by simpa [hne] using he) hrest hseparate)

/-- Digits and underscores are a numeral unless an underscore is out of place. -/
theorem of_nonempty {cs : List Char} (hall : ∀ c ∈ cs, isDecimalDigit c || c = '_')
    (hhead : cs.head? ≠ some '_') (hseparate : Text.underscoresSeparate cs)
    (hdigits : cs.filterMap digitValue? ≠ []) : Numeral cs (cs.filterMap digitValue?).length := by
  cases cs with
  | nil => exact absurd rfl hdigits
  | cons c cs =>
    obtain ⟨hc, hcs⟩ := List.forall_mem_cons.1 hall
    have hne : c ≠ '_' := by simpa using hhead
    rw [underscoresSeparate_cons hne] at hseparate
    exact .of_separate (by simpa [hne] using hc) hcs hseparate

/-- A numeral is taken whole, and nothing of the spacing after it. -/
theorem takeWhile_append (h : Numeral cs digits) {after : List Char}
    (hafter : ∀ c ∈ after, isSpacing c) :
    (cs ++ after).takeWhile (fun c => isDecimalDigit c || c = '_') = cs := by
  rw [List.takeWhile_append_of_pos h.isNumeral, List.append_right_eq_self]
  cases after with
  | nil => rfl
  | cons c rest =>
    have hspacing : isSpacing c := hafter c List.mem_cons_self
    have hdigit : ¬ isDecimalDigit c := fun hc => not_isSpacing_of_digit hc hspacing
    have hunderscore := ne_underscore_of_spacing hspacing
    exact List.takeWhile_cons_of_neg (by simp [hdigit, hunderscore])

end Numeral

/-! ## Integers -/

theorem signOf_of_digit {c : Char} (hc : isDecimalDigit c) (cs : List Char) :
    signOf (c :: cs) = (false, c :: cs) := by
  have hminus : c ≠ '-' := by
    rintro rfl
    revert hc
    decide
  have hplus : c ≠ '+' := by
    rintro rfl
    revert hc
    decide
  unfold signOf
  split
  · next heq => exact absurd (List.cons.inj heq).1 hminus
  · next heq => exact absurd (List.cons.inj heq).1 hplus
  · rfl

/-- A sign is all that `signOf` takes away. -/
theorem exists_sign (cs : List Char) :
    ∃ sign, (sign = [] ∨ sign = ['+'] ∨ sign = ['-']) ∧ cs = sign ++ (signOf cs).2 := by
  unfold signOf
  split
  · exact ⟨['-'], by simp⟩
  · exact ⟨['+'], by simp⟩
  · exact ⟨[], by simp⟩

theorem isInteger_of_readInteger {text : List Char} {n : Int} (h : readInteger text = .ok n) :
    IsInteger text := by
  obtain ⟨sign, hsign, hbody⟩ := exists_sign (text.dropWhile isSpacing)
  have htext : text.takeWhile isSpacing ++ text.dropWhile isSpacing = text :=
    List.takeWhile_append_dropWhile
  unfold readInteger at h
  dsimp only at h
  generalize (signOf (text.dropWhile isSpacing)).2 = body at h hbody
  generalize hnumeral : (body.takeWhile fun c => isDecimalDigit c || c = '_') = numeral at h
  split at h
  · cases h
  · next hseparate =>
    split at h
    · cases h
    · next hlimit =>
      split at h
      · cases h
      · next hends =>
        simp only [Bool.or_eq_true, decide_eq_true_eq, Bool.not_eq_true', not_or,
          Bool.not_eq_false, List.isEmpty_iff, List.all_eq_true] at hseparate hends
        have hall : ∀ c ∈ numeral, isDecimalDigit c || c = '_' := by
          rw [← hnumeral]
          exact fun c => List.mem_takeWhile_imp
        have hrest : numeral ++ body.drop numeral.length = body := by
          rw [← List.prefix_iff_eq_append, ← hnumeral]
          exact List.takeWhile_prefix _
        refine ⟨text.takeWhile isSpacing, sign, numeral, body.drop numeral.length,
          ⟨fun c => List.mem_takeWhile_imp, hsign, ?_, hends.2⟩, ?_⟩
        · exact ⟨_, Nat.not_lt.1 hlimit, .of_nonempty hall hseparate.1 hseparate.2 hends.1⟩
        · rw [hrest, ← hbody, htext]

theorem SpellsInteger.exists_readInteger {before sign numeral after : List Char}
    (h : SpellsInteger before sign numeral after) :
    ∃ n, readInteger (before ++ (sign ++ (numeral ++ after))) = .ok n := by
  obtain ⟨digits, hlimit, hnumeral⟩ := h.numeral
  have hbody : signOf ((before ++ (sign ++ (numeral ++ after))).dropWhile isSpacing) =
      (decide (sign = ['-']), numeral ++ after) := by
    rw [List.dropWhile_append_of_pos h.before]
    obtain ⟨c, rest, rfl, hc⟩ := hnumeral.exists_head
    obtain rfl | rfl | rfl := h.sign
    · rw [List.nil_append, List.cons_append,
        List.dropWhile_cons_of_neg (not_isSpacing_of_digit hc), signOf_of_digit hc]
      rfl
    · rfl
    · rfl
  have hhead : numeral.head? ≠ some '_' := by
    obtain ⟨c, rest, rfl, hc⟩ := hnumeral.exists_head
    simpa using ne_underscore_of_digit hc
  have hlength := hnumeral.length_digits
  have hnonempty : numeral.filterMap digitValue? ≠ [] := by
    rw [← List.length_pos_iff, hlength]
    exact hnumeral.pos
  have hafter : after.all isSpacing := List.all_eq_true.2 h.after
  unfold readInteger
  simp [hbody, hnumeral.takeWhile_append h.after, hhead, hnumeral.underscoresSeparate, hlength,
    hnonempty, hafter, Nat.not_lt.2 hlimit]

/-- Exactly the texts of integers are read. -/
theorem exists_readInteger_iff (text : List Char) :
    (∃ n, readInteger text = .ok n) ↔ IsInteger text := by
  constructor
  · rintro ⟨n, h⟩
    exact isInteger_of_readInteger h
  · rintro ⟨before, sign, numeral, after, h, rfl⟩
    exact h.exists_readInteger

end WorkloadDrift.Text
