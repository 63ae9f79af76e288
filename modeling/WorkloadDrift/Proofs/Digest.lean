import Mathlib.Data.List.Nodup
import WorkloadDrift.Digest
import WorkloadDrift.Hash.Sha256
import WorkloadDrift.Proofs.Json.Quoting

/-!
# What is asked of a digest

That it is written in hexadecimal digits, and that no two texts of a run have one
digest. The first is so of SHA-256; both are so of a digest that spells its text
out.
-/
namespace WorkloadDrift

/-- No two of the texts have one digest. -/
def Digest.Separates (digest : Digest) (texts : List String) : Prop :=
  ∀ s ∈ texts, ∀ t ∈ texts, digest s = digest t → s = t

instance (digest : Digest) (texts : List String) : Decidable (digest.Separates texts) :=
  inferInstanceAs (Decidable (∀ s ∈ texts, ∀ t ∈ texts, digest s = digest t → s = t))

/-- No two of the values have one digest. -/
abbrev Digest.SeparatesValues (digest : Digest) (values : List Json) : Prop :=
  digest.Separates (values.map Json.canonical)

/-- Digests are runs of hexadecimal digits. -/
structure Digest.Hexadecimal (digest : Digest) : Prop where
  ne_empty : ∀ text, digest text ≠ ""
  digits : ∀ text, ∀ c ∈ (digest text).toList, (Hex.value? c).isSome

namespace Digest

variable {digest : Digest}

theorem Separates.mono {texts texts' : List String} (h : digest.Separates texts')
    (hsub : ∀ s ∈ texts, s ∈ texts') : digest.Separates texts :=
  fun s hs t ht => h s (hsub s hs) t (hsub t ht)

theorem Separates.nodup_map {texts : List String} (h : digest.Separates texts)
    (distinct : texts.Nodup) : (texts.map digest).Nodup :=
  distinct.map_on fun s hs t ht => h s hs t ht

theorem SeparatesValues.mono {values values' : List Json} (h : digest.SeparatesValues values')
    (hsub : ∀ v ∈ values, v ∈ values') : digest.SeparatesValues values := by
  apply Separates.mono h
  intro s hs
  obtain ⟨v, hv, rfl⟩ := List.mem_map.1 hs
  exact List.mem_map_of_mem (hsub v hv)

theorem separates_pair {s t : String} (h : digest s ≠ digest t) : digest.Separates [s, t] := by
  intro a ha b hb heq
  simp only [List.mem_cons, List.not_mem_nil, or_false] at ha hb
  rcases ha with rfl | rfl <;> rcases hb with rfl | rfl
  · rfl
  · exact absurd heq h
  · exact absurd heq.symm h
  · rfl

theorem Hexadecimal.not_mem (h : digest.Hexadecimal) {c : Char} (hc : Hex.value? c = none)
    (text : String) : c ∉ (digest text).toList := by
  intro hmem
  have hsome : (Hex.value? c).isSome := h.digits text c hmem
  simp [hc] at hsome

end Digest

namespace Hex

theorem isSome_value?_of_mem_digits {width n : Nat} {c : Char} (h : c ∈ digits width n) :
    (value? c).isSome := by
  induction width generalizing n with
  | zero => simp [digits] at h
  | succ width ih =>
    rcases List.mem_append.1 h with h | h
    · exact ih h
    · rw [List.mem_singleton.1 h, value?_digitChar (Nat.mod_lt _ (by decide))]
      rfl

theorem digits_toNat_inj {c d : Char} (h : digits 8 c.toNat = digits 8 d.toNat) : c = d := by
  have hlt (c : Char) : c.toNat < 16 ^ 8 := c.val.toNat_lt
  have hnumber : some d.toNat = some c.toNat := by
    rw [← number?_digits (hlt d), ← number?_digits (hlt c), h]
  exact (Char.toNat_inj.1 (Option.some.inj hnumber)).symm

/-- Words of one width keep texts apart. -/
theorem flatMap_digits_inj {a b : List Char}
    (h : (a.flatMap fun c => digits 8 c.toNat) = b.flatMap fun c => digits 8 c.toNat) : a = b := by
  induction a generalizing b with
  | nil =>
    cases b with
    | nil => rfl
    | cons d b => simp [digits] at h
  | cons c a ih =>
    cases b with
    | nil => simp [digits] at h
    | cons d b =>
      obtain ⟨hfirst, hrest⟩ := List.append_inj h (by simp)
      rw [digits_toNat_inj hfirst, ih hrest]

end Hex

theorem Sha256.hexadecimal : Digest.Hexadecimal Sha256.hexDigest where
  ne_empty text h := by
    have hlength := Sha256.length_hexDigest text
    simp [h] at hlength
  digits text c hc := by
    simp only [Sha256.hexDigest, String.toList_ofList, Sha256.State.toHex, List.mem_flatMap] at hc
    obtain ⟨w, -, hc⟩ := hc
    exact Hex.isSome_value?_of_mem_digits hc

namespace Digest

/-- The digest that spells out the code points of a text, with a zero before them. -/
def spelled : Digest := fun text =>
  String.ofList ('0' :: text.toList.flatMap fun c => Hex.digits 8 c.toNat)

theorem hexadecimal_spelled : spelled.Hexadecimal where
  ne_empty text h := by
    have hlist := congrArg String.toList h
    simp [spelled] at hlist
  digits text c hc := by
    simp only [spelled, String.toList_ofList, List.mem_cons, List.mem_flatMap] at hc
    rcases hc with rfl | ⟨d, -, hc⟩
    · decide
    · exact Hex.isSome_value?_of_mem_digits hc

theorem separates_spelled (texts : List String) : spelled.Separates texts := by
  intro s _ t _ h
  have hlist := congrArg String.toList h
  simp only [spelled, String.toList_ofList, List.cons.injEq, true_and] at hlist
  exact String.toList_inj.1 (Hex.flatMap_digits_inj hlist)

end Digest
end WorkloadDrift
