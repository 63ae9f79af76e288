import Mathlib.Algebra.Group.Nat.Defs
import WorkloadDrift.Json.Token
import WorkloadDrift.Json.Writer

/-!
# Quoted texts read back

Reading takes back each character that was written, so a closing quote is found
where the writer put it. Two quoted texts that begin the same characters are
therefore the same text with the same rest behind it.
-/
namespace WorkloadDrift

namespace Hex

theorem value?_digitChar {d : Nat} (hd : d < 16) : value? (Nat.digitChar d) = some d := by
  have h : ∀ d : Fin 16, value? (Nat.digitChar d) = some d.val := by decide
  exact h ⟨d, hd⟩

theorem number?_digits {width n : Nat} (hn : n < 16 ^ width) :
    number? (digits width n) = some n := by
  induction width generalizing n with
  | zero =>
    have hz : n = 0 := by simpa using hn
    simp [digits, number?, hz]
  | succ width ih =>
    have hq : n / 16 < 16 ^ width := by
      rw [Nat.div_lt_iff_lt_mul (by decide), ← Nat.pow_succ]
      exact hn
    have hprefix := ih hq
    unfold number? at hprefix ⊢
    rw [digits, List.foldlM_append, hprefix]
    simp [value?_digitChar (Nat.mod_lt n (by decide : 0 < 16))]
    omega

end Hex

namespace Json

theorem takeUnit_digits {n : Nat} (hn : n < 0x10000) (d : Char) (rest : List Char) :
    takeUnit (Hex.digits 4 n ++ d :: rest) = .ok (n, d :: rest) := by
  have htake : (Hex.digits 4 n ++ d :: rest).take 4 = Hex.digits 4 n := by
    rw [List.take_left' (Hex.length_digits 4 n)]
  have hdrop : (Hex.digits 4 n ++ d :: rest).drop 4 = d :: rest := by
    rw [List.drop_left' (Hex.length_digits 4 n)]
  have hnumber : Hex.number? (Hex.digits 4 n) = some n := Hex.number?_digits hn
  simp only [takeUnit, htake, hdrop, hnumber]

theorem takeEscape_unit {n : Nat} (hn : n < 0x10000) (hhigh : isHighSurrogate n = false)
    (hlow : isLowSurrogate n = false) (d : Char) (rest : List Char) :
    takeEscape (Hex.digits 4 n ++ d :: rest) = .ok (Char.ofNat n, d :: rest) := by
  have hchar : ofCodePoint n = Char.ofNat n := by simp [ofCodePoint, hhigh, hlow]
  unfold takeEscape
  rw [takeUnit_digits hn]
  simp only [bind, Except.bind, hhigh, hchar]
  split <;> rfl

theorem takeEscape_surrogates {high low : Nat} (hhigh : isHighSurrogate high = true)
    (hlow : isLowSurrogate low = true) (d : Char) (rest : List Char) :
    takeEscape (Hex.digits 4 high ++ '\\' :: 'u' :: (Hex.digits 4 low ++ d :: rest)) =
      .ok (Char.ofNat (joinSurrogates high low), d :: rest) := by
  have hhigh' : high < 0x10000 := by
    simp only [isHighSurrogate, Bool.and_eq_true, decide_eq_true_eq] at hhigh
    omega
  have hlow' : low < 0x10000 := by
    simp only [isLowSurrogate, Bool.and_eq_true, decide_eq_true_eq] at hlow
    omega
  have hlength : 5 ≤ (Hex.digits 4 low ++ d :: rest).length := by
    rw [List.length_append, Hex.length_digits, List.length_cons]
    omega
  unfold takeEscape
  rw [takeUnit_digits hhigh']
  simp only [bind, Except.bind, hhigh, hlength, decide_true, Bool.and_self, if_true,
    takeUnit_digits hlow', hlow]
  rfl

/-- No character is a surrogate. -/
theorem not_surrogate (c : Char) :
    isHighSurrogate c.toNat = false ∧ isLowSurrogate c.toNat = false := by
  have hvalid : c.toNat < 0xd800 ∨ 0xdfff < c.toNat ∧ c.toNat < 0x110000 := c.valid
  simp only [isHighSurrogate, isLowSurrogate, Bool.and_eq_false_iff, decide_eq_false_iff_not]
  omega

theorem toNat_lt (c : Char) : c.toNat < 0x110000 := by
  have hvalid : c.toNat < 0xd800 ∨ 0xdfff < c.toNat ∧ c.toNat < 0x110000 := c.valid
  omega

/-! ## Written forms of characters -/

/-- Written forms that reading takes back, each in whatever text it stands, and of which none begins
with the closing quote. -/
structure Escapes (escape : Char → List Char) : Prop where
  takeChar_append (opening : List Char) (c d : Char) (rest : List Char) :
    takeChar opening (escape c ++ d :: rest) = .ok (c, d :: rest)
  append_ne_quote (c : Char) (cs rest : List Char) : escape c ++ cs ≠ '"' :: rest

theorem takeChar_unicodeEscape {c : Char} (hc : c.toNat < 0x10000) (opening : List Char) (d : Char)
    (rest : List Char) :
    takeChar opening (unicodeEscape c.toNat ++ d :: rest) = .ok (c, d :: rest) := by
  obtain ⟨hhigh, hlow⟩ := not_surrogate c
  have hescape := takeEscape_unit hc hhigh hlow d rest
  simpa [unicodeEscape, takeChar] using hescape

theorem takeChar_escape? {c : Char} {form : List Char} (h : escape? c = some form)
    (opening : List Char) (d : Char) (rest : List Char) :
    takeChar opening (form ++ d :: rest) = .ok (c, d :: rest) := by
  unfold escape? at h
  split at h
  case h_8 =>
    split at h
    · next hc =>
      cases h
      exact takeChar_unicodeEscape (by omega) opening d rest
    · cases h
  all_goals
    cases h
    rfl

theorem escape?_append_ne_quote {c : Char} {form : List Char} (h : escape? c = some form)
    (cs rest : List Char) : form ++ cs ≠ '"' :: rest := by
  unfold escape? at h
  split at h
  case h_8 =>
    split at h
    · cases h
      simp [unicodeEscape]
    · cases h
  all_goals
    cases h
    simp

theorem escape?_eq_none {c : Char} (h : escape? c = none) : c ≠ '"' ∧ c ≠ '\\' ∧ 0x20 ≤ c.toNat := by
  unfold escape? at h
  split at h
  case h_8 hquote hbackslash _ _ _ _ _ =>
    split at h
    · cases h
    · next hc => exact ⟨hquote, hbackslash, Nat.not_lt.1 hc⟩
  all_goals cases h

/-- Other characters stand for themselves. -/
theorem takeChar_self {c : Char} (h : escape? c = none) (opening rest : List Char) :
    takeChar opening (c :: rest) = .ok (c, rest) := by
  obtain ⟨-, hbackslash, hc⟩ := escape?_eq_none h
  unfold takeChar
  split
  all_goals simp_all

theorem escapes_plain : Escapes escapePlain where
  takeChar_append opening c d rest := by
    unfold escapePlain
    cases h : escape? c with
    | some form => exact takeChar_escape? h opening d rest
    | none => exact takeChar_self h opening (d :: rest)
  append_ne_quote c cs rest := by
    unfold escapePlain
    cases h : escape? c with
    | some form => exact escape?_append_ne_quote h cs rest
    | none => simpa using fun heq => absurd heq (escape?_eq_none h).1

theorem escapes_ascii : Escapes escapeAscii where
  takeChar_append opening c d rest := by
    unfold escapeAscii
    cases h : escape? c with
    | some form => exact takeChar_escape? h opening d rest
    | none =>
      simp only [Option.getD_none]
      split
      · exact takeChar_self h opening (d :: rest)
      · split
        · next hbasic => exact takeChar_unicodeEscape hbasic opening d rest
        · next hastral =>
          have hlt := toNat_lt c
          have hhigh : isHighSurrogate (0xd800 + (c.toNat - 0x10000) / 0x400) = true := by
            simp only [isHighSurrogate, Bool.and_eq_true, decide_eq_true_eq]
            omega
          have hlow : isLowSurrogate (0xdc00 + (c.toNat - 0x10000) % 0x400) = true := by
            simp only [isLowSurrogate, Bool.and_eq_true, decide_eq_true_eq]
            omega
          have hjoin : joinSurrogates (0xd800 + (c.toNat - 0x10000) / 0x400)
              (0xdc00 + (c.toNat - 0x10000) % 0x400) = c.toNat := by
            unfold joinSurrogates
            omega
          have hescape := takeEscape_surrogates hhigh hlow d rest
          rw [hjoin, Char.ofNat_toNat] at hescape
          simpa [unicodeEscape, takeChar] using hescape
  append_ne_quote c cs rest := by
    unfold escapeAscii
    cases h : escape? c with
    | some form => exact escape?_append_ne_quote h cs rest
    | none =>
      simp only [Option.getD_none]
      split
      · simpa using fun heq => absurd heq (escape?_eq_none h).1
      · split <;> simp [unicodeEscape]

/-- Reading stops at the closing quote and leaves what stands behind it. -/
theorem Escapes.takeText_append {escape : Char → List Char} (h : Escapes escape)
    (opening cs rest : List Char) :
    takeText opening (cs.flatMap escape ++ '"' :: rest) = .ok (cs, rest) := by
  induction cs with
  | nil => simp [takeText]
  | cons c cs ih =>
    obtain ⟨d, after, hafter⟩ : ∃ d after, cs.flatMap escape ++ '"' :: rest = d :: after := by
      cases hcs : cs.flatMap escape with
      | nil => exact ⟨_, _, rfl⟩
      | cons d ds => exact ⟨d, ds ++ '"' :: rest, rfl⟩
    have hchar := h.takeChar_append opening c d after
    rw [← hafter] at hchar
    rw [List.flatMap_cons, List.append_assoc, takeText]
    · split
      · next e he => simp [hchar] at he
      · next c' rest' he =>
        rw [hchar] at he
        obtain ⟨rfl, rfl⟩ := Prod.mk.inj (Except.ok.inj he)
        rw [ih]
        rfl
    · exact fun rest' => h.append_ne_quote _ _ rest'

/-- A quoted text fixes both the text and where it ends. -/
theorem quote_append_inj {s t : String} {r r' : List Char}
    (h : quote escapePlain s ++ r = quote escapePlain t ++ r') : s = t ∧ r = r' := by
  simp only [quote, List.cons_append, List.append_assoc, List.nil_append, List.cons.injEq,
    true_and] at h
  have hs := escapes_plain.takeText_append [] s.toList r
  rw [h, escapes_plain.takeText_append [] t.toList r'] at hs
  obtain ⟨htext, hrest⟩ := Prod.mk.inj (Except.ok.inj hs)
  exact ⟨String.toList_inj.1 htext.symm, hrest.symm⟩

end Json
end WorkloadDrift
