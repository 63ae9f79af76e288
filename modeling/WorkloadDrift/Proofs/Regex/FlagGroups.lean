import Mathlib.Tactic.FinCases
import WorkloadDrift.Proofs.Except
import WorkloadDrift.Regex.Matcher
import WorkloadDrift.Regex.Reader

/-!
# Patterns without an expression

A pattern may consist of groups of flags and nothing else. It is read to its end, with
the flags of all groups turned on, and then is the empty expression, which every text
has a match of. What can be wrong with it are only flags that ask for characters of two
types, in one group or in two.
-/
namespace WorkloadDrift.Regex

/-- The letters of the flags that hold for a whole pattern. -/
def globalLetters : List Char := ['a', 'i', 'm', 's', 'u', 'x']

def flagGroup (letters : List Char) : List Char := '(' :: '?' :: (letters ++ [')'])

def flagText (groups : List (List Char)) : List Char := groups.flatMap flagGroup

/-- Groups of global flags, at least one, with at least one letter each. -/
structure FlagsOnly (groups : List (List Char)) : Prop where
  ne_nil : groups ≠ []
  letters_ne_nil : ∀ letters ∈ groups, letters ≠ []
  subset_global : ∀ letters ∈ groups, letters ⊆ globalLetters

/-- Whether letters ask for characters of both types. -/
def Conflict (letters : List Char) : Prop := 'a' ∈ letters ∧ 'u' ∈ letters

instance : DecidablePred Conflict := fun letters =>
  inferInstanceAs (Decidable ('a' ∈ letters ∧ 'u' ∈ letters))

theorem Conflict.mono {letters letters' : List Char} (h : Conflict letters)
    (hsubset : letters ⊆ letters') : Conflict letters' :=
  ⟨hsubset h.1, hsubset h.2⟩

@[simp] theorem conflict_reverse (letters : List Char) :
    Conflict letters.reverse ↔ Conflict letters := by
  simp [Conflict]

/-- A reading that is the same as another, unless flags conflict; that is its fault then. -/
structure SameUnless {α : Type} (conflict : Prop) (x y : Reading α) : Prop where
  same : ¬ conflict → x = y
  fault : conflict → ∃ place, x = .error (.at (.flags .conflicting) place)

namespace SameUnless

variable {α β : Type} {p q : Prop} {x y z : Reading α} {a : α} {f : α → Reading β} {w : Reading β}

theorem trans (hxy : SameUnless p x y) (hyz : SameUnless q y z) : SameUnless (p ∨ q) x z where
  same h := (hxy.same fun hp => h (.inl hp)).trans (hyz.same fun hq => h (.inr hq))
  fault h := by
    by_cases hp : p
    · exact hxy.fault hp
    · rw [hxy.same hp]
      exact hyz.fault (h.resolve_left hp)

theorem bind_eq (hx : SameUnless p x (.ok a)) (hf : f a = w) : SameUnless p (x >>= f) w where
  same h := by rw [hx.same h, ← hf, Except.ok_bind]
  fault h := by
    obtain ⟨place, hplace⟩ := hx.fault h
    exact ⟨place, by rw [hplace, Except.error_bind]⟩

/-- What follows need only be known where there is no conflict yet. -/
theorem bind (hx : SameUnless p x (.ok a)) (hpq : p → q) (hf : ¬ p → SameUnless q (f a) w) :
    SameUnless q (x >>= f) w where
  same h := by
    have hp : ¬ p := fun hp => h (hpq hp)
    rw [hx.same hp]
    exact (hf hp).same h
  fault h := by
    by_cases hp : p
    · exact (hx.bind_eq rfl).fault hp
    · rw [hx.same hp]
      exact (hf hp).fault h

end SameUnless

theorem isFlag_of_global {c : Char} (h : c ∈ globalLetters) : flagLetters.contains c ∧ c ≠ 'L' ∧
    c ≠ '\\' ∧ c ≠ ')' ∧ c ≠ '-' ∧ c ≠ ':' := by
  fin_cases h <;> decide

theorem isType_iff {c : Char} (h : c ∈ globalLetters) :
    typeLetters.contains c ↔ c = 'a' ∨ c = 'u' := by
  fin_cases h <;> decide

variable (size place : Nat) {on letters cs : List Char} {c : Char}

/-! ## Tokens -/

theorem tokensFrom_cons (h : c ≠ '\\') :
    tokensFrom place (c :: cs) = ⟨place, [c]⟩ :: tokensFrom (place + 1) cs := by
  rw [tokensFrom]
  rintro d ds rfl
  exact absurd rfl h

theorem length_tokensFrom (h : '\\' ∉ cs) : (tokensFrom place cs).length = cs.length := by
  induction cs generalizing place with
  | nil => rfl
  | cons c cs ih =>
    obtain ⟨hc, hcs⟩ := List.ne_and_not_mem_of_not_mem_cons h
    rw [tokensFrom_cons place hc.symm, List.length_cons, List.length_cons, ih _ hcs]

theorem advance_tokensFrom (h : '\\' ∉ cs) :
    advance size (tokensFrom place cs) = .ok (tokensFrom place cs) := by
  cases cs with
  | nil => rfl
  | cons c cs =>
    obtain ⟨hc, -⟩ := List.ne_and_not_mem_of_not_mem_cons h
    rw [tokensFrom_cons place hc.symm, advance]
    simp [hc.symm]

theorem accept_tokensFrom (hc : c ≠ '\\') (hcs : '\\' ∉ cs) :
    accept size c (tokensFrom place (c :: cs)) = .ok (true, tokensFrom (place + 1) cs) := by
  simp [tokensFrom_cons place hc, accept, nextIs, advance_tokensFrom size _ hcs]

theorem escape_notMem_letters (hletters : letters ⊆ globalLetters) (hcs : '\\' ∉ cs) :
    '\\' ∉ letters ++ ')' :: cs := by
  have hescape : '\\' ∉ letters := fun h => (isFlag_of_global (hletters h)).2.2.1 rfl
  simp [hescape, hcs]

/-! ## Letters -/

theorem conflict_cons_iff (hc : c ∈ globalLetters) (hon : on ⊆ globalLetters)
    (hnone : ¬ Conflict on) : Conflict (c :: on) ↔
      typeLetters.contains c ∧ ∃ d ∈ on, typeLetters.contains d ∧ d ≠ c := by
  rw [isType_iff hc]
  constructor
  · rintro ⟨ha, hu⟩
    rcases List.mem_cons.1 ha with rfl | hbefore
    · exact ⟨.inl rfl, 'u', (List.mem_cons.1 hu).resolve_left (by decide), by decide⟩
    · rcases List.mem_cons.1 hu with rfl | hlater
      · exact ⟨.inr rfl, 'a', hbefore, by decide⟩
      · exact absurd ⟨hbefore, hlater⟩ hnone
  · rintro ⟨hc, d, hd, htype, hne⟩
    rw [isType_iff (hon hd)] at htype
    rcases hc with rfl | rfl
    · obtain rfl := htype.resolve_left hne
      exact ⟨List.mem_cons_self, List.mem_cons_of_mem _ hd⟩
    · obtain rfl := htype.resolve_right hne
      exact ⟨List.mem_cons_of_mem _ hd, List.mem_cons_self⟩

theorem sameUnless_addFlag (rest : List Token) (hc : c ∈ globalLetters) (hon : on ⊆ globalLetters)
    (hnone : ¬ Conflict on) :
    SameUnless (Conflict (c :: on)) (addFlag size on c rest) (.ok (c :: on)) := by
  obtain ⟨-, hlocale, -⟩ := isFlag_of_global hc
  have hadd : addFlag size on c rest = if Conflict (c :: on) then
      .error (.at (.flags .conflicting) (tell size rest)) else .ok (c :: on) := by
    simp only [addFlag, if_neg hlocale, conflict_cons_iff hc hon hnone, Bool.and_eq_true,
      List.any_eq_true, decide_eq_true_eq]
  exact ⟨fun h => by rw [hadd, if_neg h], fun h => ⟨_, by rw [hadd, if_pos h]⟩⟩

theorem lettersOn_cons {d : Char} (hd : d ∈ globalLetters) (hcs : '\\' ∉ cs) :
    lettersOn size on c (tokensFrom place (d :: cs)) =
      addFlag size on c (tokensFrom place (d :: cs)) >>= fun on =>
        lettersOn size on d (tokensFrom (place + 1) cs) := by
  obtain ⟨hflag, -, hescape, hclose, hdash, hcolon⟩ := isFlag_of_global hd
  simp only [tokensFrom_cons place hescape, lettersOn, advance_tokensFrom size _ hcs,
    Except.ok_bind, hclose, hdash, hcolon, hflag, or_self, if_false, if_true]

theorem lettersOn_close (hcs : '\\' ∉ cs) :
    lettersOn size on c (tokensFrom place (')' :: cs)) =
      addFlag size on c (tokensFrom place (')' :: cs)) >>= fun on =>
        .ok (on, ')', tokensFrom (place + 1) cs) := by
  have hclose : ')' ≠ '\\' := by decide
  simp only [tokensFrom_cons place hclose, lettersOn, advance_tokensFrom size _ hcs, Except.ok_bind,
    true_or, if_true, Except.pure_eq_ok]

/-- Letters are turned on one by one up to the parenthesis. -/
theorem sameUnless_lettersOn (hletters : c :: letters ⊆ globalLetters) (hon : on ⊆ globalLetters)
    (hnone : ¬ Conflict on) (hcs : '\\' ∉ cs) :
    SameUnless (Conflict (letters.reverse ++ c :: on))
      (lettersOn size on c (tokensFrom place (letters ++ ')' :: cs)))
      (.ok (letters.reverse ++ c :: on, ')', tokensFrom (place + letters.length + 1) cs)) := by
  induction letters generalizing on c place with
  | nil =>
    obtain ⟨hc, -⟩ := List.cons_subset.1 hletters
    rw [List.nil_append, lettersOn_close size place hcs]
    exact (sameUnless_addFlag size _ hc hon hnone).bind_eq rfl
  | cons d letters ih =>
    obtain ⟨hc, hletters⟩ := List.cons_subset.1 hletters
    obtain ⟨hd, hmore⟩ := List.cons_subset.1 hletters
    have hadd :=
      sameUnless_addFlag size (tokensFrom place (d :: (letters ++ ')' :: cs))) hc hon hnone
    rw [List.cons_append, lettersOn_cons size place hd (escape_notMem_letters hmore hcs)]
    refine hadd.bind (fun h => h.mono (by simp)) fun hhere => ?_
    simpa [Nat.add_assoc, Nat.add_comm 1] using
      ih (place + 1) hletters (List.cons_subset.2 ⟨hc, hon⟩) hhere

/-! ## Groups -/

/-- What has been read of a pattern with flags only: nothing that is left but the flags. -/
def bare (flags : Flags) (rest : List Token) : Progress :=
  { size, rest, frame := { opening := .pattern, place := 0, flags }, outer := [] }

theorem sameUnless_readFlags (hletters : c :: letters ⊆ globalLetters) (hcs : '\\' ∉ cs) :
    SameUnless (Conflict (c :: letters))
      (readFlags size c (tokensFrom place (letters ++ ')' :: cs)))
      (.ok (.whole (c :: letters).reverse, tokensFrom (place + letters.length + 1) cs)) := by
  obtain ⟨-, -, -, -, hdash, -⟩ := isFlag_of_global (hletters List.mem_cons_self)
  have hon := sameUnless_lettersOn size place hletters (List.nil_subset _) (by decide) hcs
  rw [← List.reverse_cons, conflict_reverse] at hon
  rw [readFlags, if_neg hdash]
  exact hon.bind_eq rfl

theorem sameUnless_openFlags (flags : Flags) (rest : List Token) (opening : Nat)
    (hletters : c :: letters ⊆ globalLetters) (hcs : '\\' ∉ cs) :
    SameUnless (Conflict (c :: letters))
      ((bare size flags rest).openFlags opening c (tokensFrom place (letters ++ ')' :: cs)))
      (.ok (bare size ((c :: letters).reverse.foldl Flags.turnOn flags)
        (tokensFrom (place + letters.length + 1) cs))) :=
  (sameUnless_readFlags size place hletters hcs).bind_eq rfl

theorem openGroup_flags (p : Progress) (opening : Nat) (hc : c ∈ globalLetters) (hcs : '\\' ∉ cs) :
    p.openGroup opening (tokensFrom place ('?' :: c :: cs)) =
      p.openFlags opening c (tokensFrom (place + 2) cs) := by
  obtain ⟨-, -, hescape, -⟩ := isFlag_of_global hc
  have hrest : '\\' ∉ c :: cs := by simp [hcs, hescape.symm]
  rw [Progress.openGroup, accept_tokensFrom p.size place (by decide) hrest]
  simp only [Except.ok_bind, Bool.not_true, Bool.false_eq_true, if_false,
    tokensFrom_cons (place + 1) hescape, advance_tokensFrom p.size _ hcs]
  fin_cases hc <;> rfl

theorem step_parenthesis (p : Progress) (hcs : '\\' ∉ cs) :
    p.step ⟨place, ['(']⟩ (tokensFrom (place + 1) cs) =
      p.openGroup place (tokensFrom (place + 1) cs) := by
  have hspace : Progress.isVerboseSpace '(' = false := by decide
  have hcomment : decide ('(' = '#') = false := by decide
  rw [Progress.step, advance_tokensFrom p.size _ hcs, Except.ok_bind]
  change (if p.frame.flags.verbose && Progress.isVerboseSpace '(' then _
    else if p.frame.flags.verbose && decide ('(' = '#') then _
    else p.openGroup place (tokensFrom (place + 1) cs)) = _
  rw [hspace, hcomment, Bool.and_false, if_neg Bool.false_ne_true, if_neg Bool.false_ne_true]

theorem run_parenthesis (fuel : Nat) (flags : Flags) (hcs : '\\' ∉ cs) :
    (bare size flags (tokensFrom place ('(' :: cs))).run (fuel + 1) =
      (bare size flags (tokensFrom place ('(' :: cs))).openGroup place
        (tokensFrom (place + 1) cs) >>= Progress.run fuel := by
  rw [← step_parenthesis place _ hcs, tokensFrom_cons place (by decide)]
  rfl

/-- A group turns its flags on. -/
theorem sameUnless_run_group (fuel : Nat) (flags : Flags) (hne : letters ≠ [])
    (hletters : letters ⊆ globalLetters) (hcs : '\\' ∉ cs) :
    SameUnless (Conflict letters)
      ((bare size flags (tokensFrom place (flagGroup letters ++ cs))).run (fuel + 1))
      ((bare size (letters.reverse.foldl Flags.turnOn flags)
        (tokensFrom (place + letters.length + 3) cs)).run fuel) := by
  obtain ⟨c, letters, rfl⟩ := List.exists_cons_of_ne_nil hne
  obtain ⟨hc, hmore⟩ := List.cons_subset.1 hletters
  have hplain := escape_notMem_letters hmore hcs
  have hrest : '\\' ∉ '?' :: c :: (letters ++ ')' :: cs) := by
    simpa using escape_notMem_letters hletters hcs
  have hgroup : flagGroup (c :: letters) ++ cs = '(' :: '?' :: c :: (letters ++ ')' :: cs) := by
    simp [flagGroup]
  have hplace : place + (c :: letters).length + 3 = place + 1 + 2 + letters.length + 1 := by
    rw [List.length_cons]
    omega
  rw [hgroup, run_parenthesis size place fuel flags hrest, openGroup_flags _ _ _ hc hplain, hplace]
  exact (sameUnless_openFlags size _ flags _ place hletters hcs).bind_eq rfl

/-! ## Patterns -/

/-- The flags with those of groups turned on. -/
def turnedOn (flags : Flags) (groups : List (List Char)) : Flags :=
  groups.foldl (fun flags letters => letters.reverse.foldl Flags.turnOn flags) flags

theorem turnedOn_iff {flag : Flags → Bool} {d : Char}
    (hflag : ∀ flags c, flag (Flags.turnOn flags c) = (flag flags || c = d)) (flags : Flags)
    (groups : List (List Char)) :
    flag (turnedOn flags groups) ↔ flag flags ∨ d ∈ groups.flatten := by
  have hletters (letters : List Char) (flags : Flags) :
      flag (letters.foldl Flags.turnOn flags) ↔ flag flags ∨ d ∈ letters := by
    induction letters generalizing flags with
    | nil => simp
    | cons c letters ih =>
      rw [List.foldl_cons, ih, hflag, Bool.or_eq_true, decide_eq_true_iff, List.mem_cons, or_assoc,
        @eq_comm _ c]
  induction groups generalizing flags with
  | nil => simp [turnedOn]
  | cons letters groups ih =>
    have hrest := ih (letters.reverse.foldl Flags.turnOn flags)
    rw [hletters, List.mem_reverse, or_assoc, ← List.mem_append] at hrest
    exact hrest

theorem ascii_turnOn (flags : Flags) (c : Char) :
    (flags.turnOn c).ascii = (flags.ascii || c = 'a') := by
  unfold Flags.turnOn
  split <;> simp_all

theorem unicode_turnOn (flags : Flags) (c : Char) :
    (flags.turnOn c).unicode = (flags.unicode || c = 'u') := by
  unfold Flags.turnOn
  split <;> simp_all

section Groups

variable {groups : List (List Char)}

theorem escape_notMem_flagText (h : ∀ letters ∈ groups, letters ⊆ globalLetters) :
    '\\' ∉ flagText groups := by
  intro hmem
  obtain ⟨letters, hletters, hmem⟩ := List.mem_flatMap.1 hmem
  have hmem : '\\' ∈ letters ++ [')'] := by simpa [flagGroup] using hmem
  exact escape_notMem_letters (h letters hletters) List.not_mem_nil hmem

theorem length_le_flagText (groups : List (List Char)) :
    groups.length ≤ (flagText groups).length := by
  induction groups with
  | nil => exact Nat.le_refl _
  | cons letters groups ih =>
    have htext : flagText (letters :: groups) = flagGroup letters ++ flagText groups := rfl
    rw [htext, List.length_append, List.length_cons, flagGroup, List.length_cons]
    omega

theorem sameUnless_run {fuel : Nat} (flags : Flags) (hne : ∀ letters ∈ groups, letters ≠ [])
    (hletters : ∀ letters ∈ groups, letters ⊆ globalLetters) (hfuel : groups.length ≤ fuel) :
    SameUnless (∃ letters ∈ groups, Conflict letters)
      ((bare size flags (tokensFrom place (flagText groups))).run fuel)
      (bare size (turnedOn flags groups) []).finish := by
  induction groups generalizing fuel flags place with
  | nil =>
    constructor
    · intro _
      cases fuel <;> rfl
    · simp
  | cons letters groups ih =>
    obtain ⟨hfirst, hne⟩ := List.forall_mem_cons.1 hne
    obtain ⟨hhere, hletters⟩ := List.forall_mem_cons.1 hletters
    cases fuel with
    | zero => cases hfuel
    | succ fuel =>
      have hgroup := sameUnless_run_group size place fuel flags hfirst hhere
        (escape_notMem_flagText hletters)
      rw [List.exists_mem_cons_iff]
      exact hgroup.trans (ih _ _ hne hletters (Nat.le_of_succ_le_succ hfuel))

theorem finish_bare (flags : Flags) : (bare size flags []).finish =
    if flags.ascii && flags.unicode then .error .conflictingTypes else .ok .empty := by
  cases htypes : flags.ascii && flags.unicode with
  | true =>
    simp only [Progress.finish, bare, htypes]
    rfl
  | false =>
    simp only [Progress.finish, bare, htypes]
    rfl

/-- A pattern with flags only is the empty expression, unless its flags ask for both types. -/
theorem sameUnless_read (h : FlagsOnly groups) :
    SameUnless (∃ letters ∈ groups, Conflict letters) (read (flagText groups))
      (if Conflict groups.flatten then .error .conflictingTypes else .ok .empty) := by
  have hplain := escape_notMem_flagText h.subset_global
  have hfuel : groups.length ≤ (tokensFrom 0 (flagText groups)).length + 1 := by
    rw [length_tokensFrom 0 hplain]
    exact Nat.le_succ_of_le (length_le_flagText groups)
  have hrun := sameUnless_run (flagText groups).length 0 {} h.letters_ne_nil h.subset_global hfuel
  simp only [finish_bare, Bool.and_eq_true, turnedOn_iff ascii_turnOn, turnedOn_iff unicode_turnOn,
    Bool.false_eq_true, false_or] at hrun
  rw [read, advance_tokensFrom _ 0 hplain]
  exact hrun

end Groups

theorem foundIn_empty (text : List Char) : Expr.empty.foundIn text := by
  cases text <;> rfl

end WorkloadDrift.Regex
