import Mathlib.Data.List.TakeDrop
import Mathlib.Data.List.TakeWhile
import WorkloadDrift.Proofs.Except
import WorkloadDrift.Json.Reader

/-!
# Integers too long to be read

Each token is taken from a part that ends the text. So where the digits of a
text never run on beyond the limit, no integer in it is too long.
-/
namespace WorkloadDrift.Json

theorem takeUnit_suffix {cs rest : List Char} {n : Nat} (h : takeUnit cs = .ok (n, rest)) :
    rest <:+ cs := by
  unfold takeUnit at h
  split at h
  · next hdrop =>
    obtain ⟨-, rfl⟩ := Prod.mk.inj (Except.ok.inj h)
    exact hdrop ▸ List.drop_suffix 4 cs
  · cases h

theorem takeEscape_suffix {cs rest : List Char} {c : Char} (h : takeEscape cs = .ok (c, rest)) :
    rest <:+ cs := by
  obtain ⟨⟨high, after⟩, hhigh, h⟩ := Except.bind_eq_ok_iff.1 h
  have hafter := takeUnit_suffix hhigh
  dsimp only at h
  split at h
  · split at h
    · obtain ⟨⟨low, after'⟩, hlow, h⟩ := Except.bind_eq_ok_iff.1 h
      have hafter' := takeUnit_suffix hlow
      dsimp only at h
      split at h
      · obtain ⟨-, rfl⟩ := Prod.mk.inj (Except.ok.inj h)
        exact ((hafter'.trans (List.suffix_cons _ _)).trans (List.suffix_cons _ _)).trans hafter
      · obtain ⟨-, rfl⟩ := Prod.mk.inj (Except.ok.inj h)
        exact hafter
    · obtain ⟨-, rfl⟩ := Prod.mk.inj (Except.ok.inj h)
      exact hafter
  · obtain ⟨-, rfl⟩ := Prod.mk.inj (Except.ok.inj h)
    exact hafter

theorem takeChar_suffix {opening cs rest : List Char} {c : Char}
    (h : takeChar opening cs = .ok (c, rest)) : rest <:+ cs := by
  unfold takeChar at h
  split at h
  · cases h
  · cases h
  · exact ((takeEscape_suffix h).trans (List.suffix_cons _ _)).trans (List.suffix_cons _ _)
  · split at h
    · obtain ⟨-, rfl⟩ := Prod.mk.inj (Except.ok.inj h)
      exact (List.suffix_cons _ _).trans (List.suffix_cons _ _)
    · cases h
  · split at h
    · cases h
    · obtain ⟨-, rfl⟩ := Prod.mk.inj (Except.ok.inj h)
      exact List.suffix_cons _ _

theorem takeText_suffix {opening cs text rest : List Char}
    (h : takeText opening cs = .ok (text, rest)) : rest <:+ cs := by
  fun_induction takeText opening cs generalizing text with
  | case1 rest' =>
    obtain ⟨-, rfl⟩ := Prod.mk.inj (Except.ok.inj h)
    exact List.suffix_cons _ _
  | case2 => cases h
  | case3 cs _ c after hchar ih =>
    obtain ⟨⟨text', rest'⟩, htext, heq⟩ := Except.map_eq_ok_iff.1 h
    obtain ⟨-, rfl⟩ := Prod.mk.inj heq
    exact (ih htext).trans (takeChar_suffix hchar)

theorem takeWhole_suffix {cs ds rest : List Char} (h : takeWhole cs = some (ds, rest)) :
    cs = ds ++ rest ∧ ds ≠ [] ∧ ∀ c ∈ ds, c.isDigit := by
  unfold takeWhole at h
  split at h
  · cases h
    exact ⟨rfl, by simp, by simp⟩
  · split at h
    · cases h
    · next hsome =>
      rw [List.span_eq_takeWhile_dropWhile] at h
      cases h
      exact ⟨List.takeWhile_append_dropWhile.symm, by simpa using hsome,
        fun c hc => List.mem_takeWhile_imp hc⟩

theorem takeFraction_suffix {cs ds rest : List Char} (h : takeFraction cs = some (ds, rest)) :
    rest <:+ cs := by
  unfold takeFraction at h
  split at h
  · split at h
    · cases h
    · rw [List.span_eq_takeWhile_dropWhile] at h
      cases h
      exact (List.dropWhile_suffix _).trans (List.suffix_cons _ _)
  · cases h

theorem takeSign_suffix (cs : List Char) : (takeSign cs).2 <:+ cs := by
  unfold takeSign
  split
  · exact List.suffix_cons _ _
  · exact List.suffix_cons _ _
  · exact List.suffix_rfl

theorem takeExponent_suffix {cs rest : List Char} {e : Int}
    (h : takeExponent cs = some (e, rest)) : rest <:+ cs := by
  cases cs with
  | nil => cases h
  | cons c cs =>
    simp only [takeExponent, List.span_eq_takeWhile_dropWhile] at h
    split at h
    · split at h
      · cases h
      · cases h
        exact ((List.dropWhile_suffix _).trans (takeSign_suffix cs)).trans (List.suffix_cons _ _)
    · cases h

/-- A number is a sign with digits, and what may follow makes it no integer. -/
theorem takeNumber_eq_some {cs rest : List Char} {token : Token}
    (h : takeNumber cs = some (token, rest)) :
    ∃ negative whole after, whole ≠ [] ∧ whole ++ after <:+ cs ∧ (∀ c ∈ whole, c.isDigit) ∧
      rest <:+ after ∧ (token = integer negative whole ∨ ∃ x, token = .scalar (.float x)) := by
  unfold takeNumber at h
  split at h
  next negative unsigned hsplit =>
  have hunsigned : unsigned <:+ cs := by
    split at hsplit
    · cases hsplit
      exact List.suffix_cons _ _
    · cases hsplit
      exact List.suffix_rfl
  split at h
  · cases h
  · next whole after hwhole =>
    obtain ⟨rfl, hsome, hdigits⟩ := takeWhole_suffix hwhole
    have hfraction : ((takeFraction after).getD ([], after)).2 <:+ after := by
      cases h : takeFraction after with
      | none => exact List.suffix_rfl
      | some p => exact takeFraction_suffix h
    have hexponent (rest : List Char) : ((takeExponent rest).getD (0, rest)).2 <:+ rest := by
      cases h : takeExponent rest with
      | none => exact List.suffix_rfl
      | some p => exact takeExponent_suffix h
    refine ⟨negative, whole, after, hsome, hunsigned, hdigits, ?_⟩
    dsimp only at h
    split at h
    · cases h
      exact ⟨(hexponent _).trans hfraction, .inl rfl⟩
    · cases h
      exact ⟨(hexponent _).trans hfraction, .inr ⟨_, rfl⟩⟩

theorem takeLiteral_eq_some {cs rest : List Char} {token : Token}
    (h : takeLiteral cs = some (token, rest)) :
    ∃ p ∈ literals, token = .scalar p.2 ∧ rest = cs.drop p.1.length := by
  obtain ⟨p, hfind, heq⟩ := Option.map_eq_some_iff.1 h
  obtain ⟨rfl, rfl⟩ := Prod.mk.inj heq
  exact ⟨p, List.mem_of_find?_eq_some hfind, rfl, rfl⟩

/-- A token takes at least the character that it begins with. -/
theorem takeToken_cons_suffix (c : Char) (cs : List Char) : (takeToken (c :: cs)).2 <:+ cs := by
  unfold takeToken
  split
  case h_1 heq => cases heq
  case h_8 heq =>
    obtain ⟨-, rfl⟩ := List.cons.inj heq
    split
    · next htext => exact takeText_suffix htext
    · exact List.nil_suffix
  case h_9 =>
    cases hliteral : takeLiteral (c :: cs) with
    | some p =>
      obtain ⟨q, hq, -, hrest⟩ := takeLiteral_eq_some hliteral
      have hlength : ∀ q ∈ literals, ∃ n, q.1.length = n + 1 := by simp [literals]
      obtain ⟨n, hn⟩ := hlength q hq
      rw [hn, List.drop_succ_cons] at hrest
      exact hrest ▸ List.drop_suffix n cs
    | none =>
      cases hnumber : takeNumber (c :: cs) with
      | some p =>
        obtain ⟨_, whole, after, hsome, hafter, _, hrest, _⟩ := takeNumber_eq_some hnumber
        obtain ⟨d, ds, rfl⟩ := List.exists_cons_of_ne_nil hsome
        have hbehind : ds ++ after <:+ cs := by
          rcases List.suffix_cons_iff.1 hafter with heq | hsuffix
          · obtain ⟨-, rfl⟩ := List.cons.inj heq
            exact List.suffix_rfl
          · exact (List.suffix_cons d _).trans hsuffix
        exact hrest.trans ((List.suffix_append ds after).trans hbehind)
      | none => exact List.nil_suffix
  all_goals
    next heq =>
    obtain ⟨-, rfl⟩ := List.cons.inj heq
    exact List.suffix_rfl

theorem takeToken_suffix (cs : List Char) : (takeToken cs).2 <:+ cs := by
  cases cs with
  | nil => exact List.suffix_rfl
  | cons c cs => exact (takeToken_cons_suffix c cs).trans (List.suffix_cons c cs)

theorem mem_tokens {cs : List Char} {t : Placed} (h : t ∈ tokens cs) :
    t.place <:+ cs ∧ t.token = (takeToken t.place).1 := by
  fun_induction tokens cs with
  | case1 => simp at h
  | case2 cs c rest hrest token after htoken ih =>
    have hplace : c :: rest <:+ cs := hrest ▸ List.dropWhile_suffix _
    have hafter : after <:+ c :: rest := by
      simpa [htoken] using takeToken_suffix (c :: rest)
    rcases List.mem_cons.1 h with rfl | h
    · exact ⟨hplace, by rw [htoken]⟩
    · split at h
      · next hlt =>
        obtain ⟨hsuffix, htoken'⟩ := ih hlt h
        exact ⟨hsuffix.trans (hafter.trans hplace), htoken'⟩
      · simp at h

/-- A token is an integer as it stands in the text, or holds no integer. -/
theorem takeToken_integer (cs : List Char) :
    (∃ negative whole, (takeToken cs).1 = integer negative whole ∧ whole <:+: cs ∧
      ∀ c ∈ whole, c.isDigit) ∨
    (∀ n, (takeToken cs).1 ≠ .oversized n) ∧
      ∀ v, (takeToken cs).1 = .scalar v → v = .null ∨ (∃ b, v = .bool b) ∨ ∃ x, v = .float x := by
  unfold takeToken
  split
  case h_8 cs => split <;> simp
  case h_9 =>
    cases hliteral : takeLiteral cs with
    | some p =>
      obtain ⟨literal, hmem, htoken, -⟩ := takeLiteral_eq_some hliteral
      right
      have hvalue : ∀ p ∈ literals, p.2 = .null ∨ (∃ b, p.2 = .bool b) ∨ ∃ x, p.2 = .float x := by
        simp [literals]
      simpa [htoken] using hvalue literal hmem
    | none =>
      cases hnumber : takeNumber cs with
      | some p =>
        obtain ⟨negative, whole, after, -, hinfix, hdigits, -, htoken⟩ := takeNumber_eq_some hnumber
        rcases htoken with htoken | ⟨x, htoken⟩
        · left
          exact ⟨negative, whole, by simpa using htoken,
            (List.prefix_append whole after).isInfix.trans hinfix.isInfix, hdigits⟩
        · right
          simp [htoken]
      | none => simp
  all_goals simp

theorem State.begin_oversized {stack : List Frame} {t : Placed} {n : Nat}
    (h : State.begin stack t = .error (.oversized n)) : t.token = .oversized n := by
  unfold State.begin at h
  split at h <;> simp_all

theorem State.readName_oversized {members : Members} {stack : List Frame} {t : Placed} {n : Nat} :
    State.readName members stack t ≠ .error (.oversized n) := by
  unfold State.readName
  split <;> simp

theorem State.step_oversized {s : State} {t : Placed} {n : Nat}
    (h : s.step t = .error (.oversized n)) : t.token = .oversized n := by
  unfold State.step at h
  split at h
  case h_1 => exact State.begin_oversized h
  case h_2 =>
    split at h
    · cases h
    · exact State.begin_oversized h
  case h_3 =>
    split at h
    · cases h
    · exact absurd h State.readName_oversized
  case h_4 => exact absurd h State.readName_oversized
  case h_8 => cases h
  all_goals split at h <;> cases h

theorem State.finish_oversized {s : State} {n : Nat} : s.finish ≠ .error (.oversized n) := by
  cases s <;> simp [State.finish]

theorem exists_oversized {ts : List Placed} {s : State} {n : Nat}
    (h : ts.foldlM State.step s = .error (.oversized n)) : ∃ t ∈ ts, t.token = .oversized n := by
  induction ts generalizing s with
  | nil => cases h
  | cons t ts ih =>
    rw [List.foldlM_cons] at h
    cases hstep : s.step t with
    | error e =>
      rw [hstep] at h
      cases h
      exact ⟨t, by simp, State.step_oversized hstep⟩
    | ok s' =>
      rw [hstep] at h
      obtain ⟨t', ht', hoversized⟩ := ih h
      exact ⟨t', by simp [ht'], hoversized⟩

/-- An integer is too long only where the digits of the text run on beyond the limit. -/
theorem exists_run_of_oversized {text : List Char} {n : Nat}
    (h : ofChars text = .error (.oversizedInteger n)) :
    ∃ run, run <:+: text ∧ (∀ c ∈ run, c.isDigit) ∧ run.length = n ∧ Decimal.digitLimit < n := by
  have htokens : ofTokens (tokens text) = .error (.oversized n) := by
    unfold ofChars at h
    split at h
    · cases h
    · split at h
      · cases h
      · cases h
      · next hstop => rw [hstop, ReadError.oversizedInteger.inj (Except.error.inj h)]
  obtain ⟨t, ht, htoken⟩ : ∃ t ∈ tokens text, t.token = .oversized n := by
    cases hrun : (tokens text).foldlM State.step (.awaitValue []) with
    | ok s =>
      simp only [ofTokens, hrun] at htokens
      exact absurd htokens State.finish_oversized
    | error e =>
      simp only [ofTokens, hrun] at htokens
      cases htokens
      exact exists_oversized hrun
  obtain ⟨hplace, hfirst⟩ := mem_tokens ht
  rw [htoken] at hfirst
  rcases takeToken_integer t.place with ⟨negative, whole, heq, hinfix, hdigits⟩ | hnone
  · rw [heq, integer] at hfirst
    split at hfirst
    · next hlimit =>
      cases hfirst
      exact ⟨whole, hinfix.trans hplace.isInfix, hdigits, rfl, hlimit⟩
    · cases hfirst
  · exact absurd hfirst.symm (hnone.1 n)

end WorkloadDrift.Json
