import Mathlib.Tactic.SplitIfs
import WorkloadDrift.Proofs.Except
import WorkloadDrift.Text.Utf8

/-!
# Decoding takes back the encoding

The byte sequences of UTF-8 by their lengths, which are what is written for a
character and what is taken for one. So bytes are decoded exactly when they are
the encoding of some text, and give that text.
-/
namespace WorkloadDrift.Utf8

/-- The bytes of a code point: the shortest ones, and none for a surrogate. -/
inductive Sequence : Nat → List UInt8 → Prop
  | one {n : Nat} {a : UInt8} : n ≤ 0x7f → a.toNat = n → Sequence n [a]
  | two {n : Nat} {a b : UInt8} : 0x80 ≤ n → n ≤ 0x7ff → a.toNat = 0xc0 + n / 64 →
      b.toNat = 0x80 + n % 64 → Sequence n [a, b]
  | three {n : Nat} {a b c : UInt8} : 0x800 ≤ n → n ≤ 0xffff → n < 0xd800 ∨ 0xdfff < n →
      a.toNat = 0xe0 + n / 4096 → b.toNat = 0x80 + n / 64 % 64 → c.toNat = 0x80 + n % 64 →
      Sequence n [a, b, c]
  | four {n : Nat} {a b c d : UInt8} : 0x10000 ≤ n → n ≤ 0x10ffff → a.toNat = 0xf0 + n / 262144 →
      b.toNat = 0x80 + n / 4096 % 64 → c.toNat = 0x80 + n / 64 % 64 → d.toNat = 0x80 + n % 64 →
      Sequence n [a, b, c, d]

theorem toNat_ofNat {n : Nat} (h : n < 0xd800 ∨ 0xdfff < n ∧ n < 0x110000) :
    (Char.ofNat n).val.toNat = n := by
  have hvalid : n.isValidChar := h
  rw [Char.ofNat, dif_pos hvalid]
  rfl

theorem sequence_encode (c : Char) : Sequence c.val.toNat (String.utf8EncodeChar c) := by
  have hvalid : c.val.toNat < 0xd800 ∨ 0xdfff < c.val.toNat ∧ c.val.toNat < 0x110000 := c.valid
  unfold String.utf8EncodeChar
  generalize c.val.toNat = n at hvalid
  dsimp only
  split
  · exact .one (by omega) (by simp; omega)
  · split
    · refine .two (by omega) (by omega) ?_ ?_ <;> simp <;> omega
    · split
      · refine .three (by omega) (by omega) (by omega) ?_ ?_ ?_ <;> simp <;> omega
      · refine .four (by omega) (by omega) ?_ ?_ ?_ ?_ <;> simp <;> omega

theorem Sequence.eq_encode {n : Nat} {bytes : List UInt8} (h : Sequence n bytes) :
    bytes = String.utf8EncodeChar (Char.ofNat n) := by
  have hvalid : n < 0xd800 ∨ 0xdfff < n ∧ n < 0x110000 := by cases h <;> omega
  have hencode := sequence_encode (Char.ofNat n)
  rw [toNat_ofNat hvalid] at hencode
  generalize String.utf8EncodeChar (Char.ofNat n) = encoded at hencode
  -- each code point falls in the range of one length only
  cases h <;> cases hencode <;> simp only [List.cons.injEq, and_true, ← UInt8.toNat_inj] <;> omega

/-! ## Taking a sequence -/

theorem takeFollowers_succ_eq_ok {k code : Nat} {low high : UInt8} {bytes : List UInt8}
    {t : Nat × List UInt8} :
    takeFollowers (k + 1) low high code bytes = .ok t ↔
      ∃ b rest, bytes = b :: rest ∧ low.toNat ≤ b.toNat ∧ b.toNat ≤ high.toNat ∧
        takeFollowers k 0x80 0xbf (64 * code + b.toNat % 64) rest = .ok t := by
  cases bytes with
  | nil => simp [takeFollowers]
  | cons b rest =>
    simp only [takeFollowers, List.cons.injEq, UInt8.le_iff_toNat_le]
    constructor
    · intro h
      split at h
      · next hb =>
        refine ⟨b, rest, ⟨rfl, rfl⟩, hb.1, hb.2, ?_⟩
        split at h
        · next hrest => rw [hrest, h]
        · cases h
      · cases h
    · rintro ⟨_, _, ⟨rfl, rfl⟩, hlow, hhigh, h⟩
      simp [hlow, hhigh, h]

/-- What the leads of each length are, and what they ask of the byte behind them: no character is
written longer than needed, and none is a surrogate or beyond the last one. -/
theorem shape?_eq_some_iff {lead low high : UInt8} {k : Nat} :
    shape? lead = some (k, low, high) ↔
      (k = 1 ∧ 0xc2 ≤ lead.toNat ∧ lead.toNat ≤ 0xdf ∧ low = 0x80 ∧ high = 0xbf) ∨
      (k = 2 ∧ 0xe0 ≤ lead.toNat ∧ lead.toNat ≤ 0xef ∧
        low = (if lead.toNat = 0xe0 then 0xa0 else 0x80) ∧
        high = if lead.toNat = 0xed then 0x9f else 0xbf) ∨
      (k = 3 ∧ 0xf0 ≤ lead.toNat ∧ lead.toNat ≤ 0xf4 ∧
        low = (if lead.toNat = 0xf0 then 0x90 else 0x80) ∧
        high = if lead.toNat = 0xf4 then 0x8f else 0xbf) := by
  simp only [shape?, UInt8.le_iff_toNat_le, ← UInt8.toNat_inj, UInt8.reduceToNat]
  split_ifs <;> simp [← UInt8.toNat_inj] <;> omega

theorem takeChar_of_lt {lead : UInt8} (h : lead.toNat < 0x80) (bytes : List UInt8) :
    takeChar lead bytes = .ok (Char.ofNat lead.toNat, bytes) := by
  rw [takeChar, if_pos]
  simpa [UInt8.lt_iff_toNat_lt] using h

theorem takeChar_eq_ok_of_le {lead : UInt8} (h : 0x80 ≤ lead.toNat) {bytes rest : List UInt8}
    {c : Char} :
    takeChar lead bytes = .ok (c, rest) ↔ ∃ k low high code, shape? lead = some (k, low, high) ∧
      takeFollowers k low high (leadBits k lead) bytes = .ok (code, rest) ∧ Char.ofNat code = c := by
  rw [takeChar, if_neg (by simpa [UInt8.le_iff_toNat_le] using h)]
  cases hshape : shape? lead with
  | none => simp
  | some shape =>
    obtain ⟨k, low, high⟩ := shape
    cases hfollow : takeFollowers k low high (leadBits k lead) bytes with
    | error e => grind
    | ok taken => grind

theorem Sequence.takeChar {n : Nat} {lead : UInt8} {bytes : List UInt8}
    (h : Sequence n (lead :: bytes)) (rest : List UInt8) :
    Utf8.takeChar lead (bytes ++ rest) = .ok (Char.ofNat n, rest) := by
  cases h with
  | one hn ha =>
    rw [takeChar_of_lt (by omega), ha]
    rfl
  | two hn hn' ha hb =>
    refine (takeChar_eq_ok_of_le (by omega)).2
      ⟨1, _, _, n, shape?_eq_some_iff.2 (.inl ⟨rfl, ?_, ?_, rfl, rfl⟩), ?_, rfl⟩
    · omega
    · omega
    · refine takeFollowers_succ_eq_ok.2 ⟨_, _, rfl, ?_, ?_, ?_⟩
      all_goals simp [takeFollowers, leadBits]; omega
  | three hn hn' hs ha hb hc =>
    refine (takeChar_eq_ok_of_le (by omega)).2
      ⟨2, _, _, n, shape?_eq_some_iff.2 (.inr (.inl ⟨rfl, ?_, ?_, rfl, rfl⟩)), ?_, rfl⟩
    · omega
    · omega
    · refine takeFollowers_succ_eq_ok.2 ⟨_, _, rfl, ?_, ?_,
        takeFollowers_succ_eq_ok.2 ⟨_, _, rfl, ?_, ?_, ?_⟩⟩
      · split <;> simp <;> omega
      · split <;> simp <;> omega
      all_goals simp [takeFollowers, leadBits]; omega
  | four hn hn' ha hb hc hd =>
    refine (takeChar_eq_ok_of_le (by omega)).2
      ⟨3, _, _, n, shape?_eq_some_iff.2 (.inr (.inr ⟨rfl, ?_, ?_, rfl, rfl⟩)), ?_, rfl⟩
    · omega
    · omega
    · refine takeFollowers_succ_eq_ok.2 ⟨_, _, rfl, ?_, ?_,
        takeFollowers_succ_eq_ok.2 ⟨_, _, rfl, ?_, ?_,
          takeFollowers_succ_eq_ok.2 ⟨_, _, rfl, ?_, ?_, ?_⟩⟩⟩
      · split <;> simp <;> omega
      · split <;> simp <;> omega
      all_goals simp [takeFollowers, leadBits]; omega

theorem exists_sequence {lead : UInt8} {bytes rest : List UInt8} {c : Char}
    (h : takeChar lead bytes = .ok (c, rest)) :
    ∃ n taken, Sequence n (lead :: taken) ∧ bytes = taken ++ rest ∧ c = Char.ofNat n := by
  rcases Nat.lt_or_ge lead.toNat 0x80 with hlead | hlead
  · rw [takeChar_of_lt hlead] at h
    cases h
    exact ⟨lead.toNat, [], .one (by omega) rfl, rfl, rfl⟩
  · obtain ⟨k, low, high, code, hshape, hfollow, rfl⟩ := (takeChar_eq_ok_of_le hlead).1 h
    rcases shape?_eq_some_iff.1 hshape with
      ⟨rfl, hl, hh, rfl, rfl⟩ | ⟨rfl, hl, hh, rfl, rfl⟩ | ⟨rfl, hl, hh, rfl, rfl⟩
    · obtain ⟨b, rest, rfl, hb, hb', hend⟩ := takeFollowers_succ_eq_ok.1 hfollow
      simp [takeFollowers, leadBits] at hb hb' hend
      obtain ⟨hcode, rfl⟩ := hend
      refine ⟨code, [b], .two ?_ ?_ ?_ ?_, rfl, rfl⟩ <;> omega
    · obtain ⟨b, _, rfl, hb, hb', hnext⟩ := takeFollowers_succ_eq_ok.1 hfollow
      obtain ⟨c, rest, rfl, hc, hc', hend⟩ := takeFollowers_succ_eq_ok.1 hnext
      simp [takeFollowers, leadBits] at hc hc' hend
      obtain ⟨hcode, rfl⟩ := hend
      refine ⟨code, [b, c], .three ?_ ?_ ?_ ?_ ?_ ?_, rfl, rfl⟩
      all_goals split at hb <;> split at hb' <;> simp at hb hb' <;> omega
    · obtain ⟨b, _, rfl, hb, hb', hnext⟩ := takeFollowers_succ_eq_ok.1 hfollow
      obtain ⟨c, _, rfl, hc, hc', hnext⟩ := takeFollowers_succ_eq_ok.1 hnext
      obtain ⟨d, rest, rfl, hd, hd', hend⟩ := takeFollowers_succ_eq_ok.1 hnext
      simp [takeFollowers, leadBits] at hc hc' hd hd' hend
      obtain ⟨hcode, rfl⟩ := hend
      refine ⟨code, [b, c, d], .four ?_ ?_ ?_ ?_ ?_ ?_, rfl, rfl⟩
      all_goals split at hb <;> split at hb' <;> simp at hb hb' <;> omega

/-- A character is taken off where, and only where, its encoding stands. -/
theorem takeChar_eq_ok_iff {lead : UInt8} {bytes rest : List UInt8} {c : Char} :
    takeChar lead bytes = .ok (c, rest) ↔ lead :: bytes = String.utf8EncodeChar c ++ rest := by
  constructor
  · intro h
    obtain ⟨n, taken, hsequence, rfl, rfl⟩ := exists_sequence h
    rw [← hsequence.eq_encode, List.cons_append]
  · intro h
    have hsequence := sequence_encode c
    cases hencode : String.utf8EncodeChar c with
    | nil => exact absurd hencode String.utf8EncodeChar_ne_nil
    | cons a taken =>
      rw [hencode] at h hsequence
      obtain ⟨rfl, rfl⟩ := List.cons.inj h
      have hchar : Char.ofNat c.val.toNat = c := Char.ofNat_toNat c
      have htaken := hsequence.takeChar rest
      rwa [hchar] at htaken

/-- How the encoding of a text begins. -/
theorem cons_eq_encoding_iff {lead : UInt8} {bytes : List UInt8} {cs : List Char} :
    lead :: bytes = cs.flatMap String.utf8EncodeChar ↔
      ∃ c rest, takeChar lead bytes = .ok (c, rest.flatMap String.utf8EncodeChar) ∧
        c :: rest = cs := by
  cases cs with
  | nil => simp
  | cons c cs => simp [takeChar_eq_ok_iff]

theorem decodeFrom_eq_ok_iff {position : Nat} {bytes : List UInt8} {cs : List Char} :
    decodeFrom position bytes = .ok cs ↔ bytes = cs.flatMap String.utf8EncodeChar := by
  fun_induction decodeFrom position bytes generalizing cs with
  | case1 =>
    cases cs with
    | nil => simp
    | cons c cs => simp [String.utf8EncodeChar_ne_nil]
  | case2 position lead bytes reason length h => simp [cons_eq_encoding_iff, h]
  | case3 position lead bytes c rest h ih =>
    rw [cons_eq_encoding_iff, Except.map_eq_ok_iff, h]
    constructor
    · rintro ⟨cs', hrest, rfl⟩
      exact ⟨c, cs', by rw [← ih.1 hrest], rfl⟩
    · rintro ⟨_, cs', htake, rfl⟩
      obtain ⟨rfl, hrest⟩ := Prod.mk.inj (Except.ok.inj htake)
      exact ⟨cs', ih.2 hrest, rfl⟩

/-- Bytes are decoded to a text exactly when they are its encoding. -/
theorem decode_eq_ok_iff {bytes : List UInt8} {text : String} :
    decode bytes = .ok text.toList ↔ bytes = text.toUTF8.data.toList := by
  have hencoding : text.toUTF8.data.toList = text.toList.flatMap String.utf8EncodeChar := by
    rw [String.toUTF8_eq_toByteArray, ← String.utf8Encode_toList, List.utf8Encode,
      List.data_toByteArray]
  rw [hencoding]
  exact decodeFrom_eq_ok_iff

end WorkloadDrift.Utf8
