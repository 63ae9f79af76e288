import WorkloadDrift.Proofs.Json.Reading

/-!
# The indented text

Line ends and blanks stand only where the automaton passes over them, so the
indented text of a value is read back like the compact one. All of it is ASCII.
-/
namespace WorkloadDrift.Json

instance : DecidablePred Blank := fun gap => decidable_of_iff (gap.all isSpace = true) List.all_eq_true

theorem blank_newline (depth : Nat) : Blank (newline depth) := by
  intro c hc
  rcases List.mem_cons.1 hc with rfl | hc
  · rfl
  · rw [(List.mem_replicate.1 hc).2]
    rfl

/-- The blanks before a closing bracket. -/
def closingGap {α : Type} (depth : Nat) (parts : List α) : List Char :=
  if parts.isEmpty then [] else newline depth

theorem blank_closingGap {α : Type} (depth : Nat) (parts : List α) :
    Blank (closingGap depth parts) := by
  unfold closingGap
  split
  · exact blank_nil
  · exact blank_newline depth

/-- A block is the parts with commas between them, each of them after a new line. -/
theorem block_map {α : Type} (opening closing : Char) (depth : Nat) (write : α → List Char)
    (as : List α) : block opening closing depth (as.map write) =
      opening :: (joinWith [','] (as.map fun a => newline (depth + 1) ++ write a) ++
        (closingGap depth as ++ [closing])) := by
  cases as with
  | nil => rfl
  | cons a as =>
    simp only [block, closingGap, List.map_cons, List.isEmpty_cons, Bool.false_eq_true, if_false,
      joinWith_cons, List.flatMap_map, List.append_assoc, List.cons_append, List.nil_append]

theorem indentedItems_eq_map (depth : Nat) (items : List Json) :
    indentedItems depth items = items.map (indented depth) := by
  induction items with
  | nil => rfl
  | cons v items ih => simp [indentedItems, ih]

def indentedMember (depth : Nat) (m : String × Json) : List Char :=
  quote escapeAscii m.1 ++ ':' :: ' ' :: indented depth m.2

theorem indentedMembers_eq_map (depth : Nat) (members : Members) :
    indentedMembers depth members = members.map (indentedMember depth) := by
  induction members with
  | nil => rfl
  | cons m members ih => simp [indentedMembers, indentedMember, ih]

theorem reads_indented {v : Json} (legible : v.Legible) (depth : Nat) :
    Reads (indented depth v) v := by
  induction v using induct generalizing depth with
  | null => exact reads_null
  | bool b => exact reads_bool b
  | int n => exact reads_int (legible_int.1 legible)
  | float x => exact absurd rfl legible.floatFree.kindName_ne
  | str s => exact reads_str escapes_ascii s
  | arr items ih =>
    rw [indented, indentedItems_eq_map, block_map]
    exact reads_arr (blank_closingGap depth items) fun v hv =>
      (ih v hv (legible_arr.1 legible v hv) (depth + 1)).after_blank (blank_newline _)
  | obj members ih =>
    obtain ⟨hnames, hmembers⟩ := legible_obj.1 legible
    rw [indented, indentedMembers_eq_map, block_map]
    refine reads_obj (blank_closingGap depth members) (fun m hm => ?_) hnames
    have hvalue : Reads (' ' :: indented (depth + 1) m.2) m.2 :=
      (ih m hm (hmembers m hm) (depth + 1)).after_blank (by decide : Blank [' '])
    exact (reads_member escapes_ascii hvalue).after_blank (blank_newline _)

/-! ## Only ASCII -/

def Ascii (cs : List Char) : Prop := ∀ c ∈ cs, c.toNat < 128

instance : DecidablePred Ascii := fun cs =>
  decidable_of_iff (cs.all (fun c => c.toNat < 128) = true) (by simp [Ascii])

theorem Ascii.append {cs ds : List Char} (hcs : Ascii cs) (hds : Ascii ds) : Ascii (cs ++ ds) :=
  List.forall_mem_append.2 ⟨hcs, hds⟩

theorem Ascii.cons {c : Char} {cs : List Char} (hc : c.toNat < 128) (hcs : Ascii cs) :
    Ascii (c :: cs) := List.forall_mem_cons.2 ⟨hc, hcs⟩

theorem ascii_hexDigits (width n : Nat) : Ascii (Hex.digits width n) := by
  have hdigit : ∀ d : Fin 16, (Nat.digitChar d).toNat < 128 := by decide
  induction width generalizing n with
  | zero => simp [Hex.digits, Ascii]
  | succ width ih =>
    refine (ih (n / 16)).append (.cons ?_ (by simp [Ascii]))
    exact hdigit ⟨n % 16, Nat.mod_lt n (by decide)⟩

theorem ascii_unicodeEscape (n : Nat) : Ascii (unicodeEscape n) :=
  .cons (by decide) (.cons (by decide) (ascii_hexDigits 4 n))

theorem ascii_escape? {c : Char} {form : List Char} (h : escape? c = some form) : Ascii form := by
  unfold escape? at h
  split at h
  case h_8 =>
    split at h
    · cases h
      exact ascii_unicodeEscape _
    · cases h
  all_goals
    cases h
    decide

theorem ascii_escapeAscii (c : Char) : Ascii (escapeAscii c) := by
  unfold escapeAscii
  cases h : escape? c with
  | some form => exact ascii_escape? h
  | none =>
    simp only [Option.getD_none]
    split
    · exact .cons (by omega) (by simp [Ascii])
    · split
      · exact ascii_unicodeEscape _
      · exact (ascii_unicodeEscape _).append (ascii_unicodeEscape _)

theorem ascii_quote (s : String) : Ascii (quote escapeAscii s) := by
  refine .cons (by decide) (.append (fun c hc => ?_) (by decide))
  obtain ⟨d, -, hc⟩ := List.mem_flatMap.1 hc
  exact ascii_escapeAscii d c hc

theorem ascii_digits (n : Nat) : Ascii (Decimal.digits n) := by
  intro c hc
  have hdigit : c.isDigit := Nat.isDigit_of_mem_toDigits (by decide) (by decide) hc
  have hle : c.toNat ≤ 57 := by
    simp only [Char.isDigit, Bool.and_eq_true, decide_eq_true_eq] at hdigit
    exact hdigit.2
  omega

theorem Blank.ascii {gap : List Char} (h : Blank gap) : Ascii gap := by
  intro c hc
  have hspace := h c hc
  simp only [isSpace, Bool.or_eq_true, decide_eq_true_eq] at hspace
  rcases hspace with ((rfl | rfl) | rfl) | rfl <;> decide

theorem ascii_block {α : Type} {opening closing : Char} {depth : Nat} {write : α → List Char}
    {as : List α} (hopening : opening.toNat < 128) (hclosing : closing.toNat < 128)
    (has : ∀ a ∈ as, Ascii (write a)) : Ascii (block opening closing depth (as.map write)) := by
  rw [block_map]
  refine .cons hopening (.append ?_ ((blank_closingGap depth as).ascii.append
    (.cons hclosing (by simp [Ascii]))))
  intro c hc
  rcases mem_joinWith hc with hcomma | ⟨part, hpart, hc⟩
  · rw [List.mem_singleton.1 hcomma]
    decide
  · obtain ⟨a, ha, rfl⟩ := List.mem_map.1 hpart
    exact (blank_newline _).ascii.append (has a ha) c hc

theorem ascii_indented {v : Json} (floatFree : v.FloatFree) (depth : Nat) :
    Ascii (indented depth v) := by
  induction v using induct generalizing depth with
  | null => exact (by decide : Ascii "null".toList)
  | bool b =>
    have hbool : ∀ b, Ascii (writeBool b) := by decide
    exact hbool b
  | int n =>
    cases n with
    | ofNat n => exact ascii_digits n
    | negSucc n => exact .cons (by decide) (ascii_digits (n + 1))
  | float x => exact absurd rfl floatFree.kindName_ne
  | str s => exact ascii_quote s
  | arr items ih =>
    rw [indented, indentedItems_eq_map]
    exact ascii_block (by decide) (by decide) fun v hv =>
      ih v hv (floatFree_arr.1 floatFree v hv) (depth + 1)
  | obj members ih =>
    rw [indented, indentedMembers_eq_map]
    refine ascii_block (by decide) (by decide) fun m hm => ?_
    exact (ascii_quote m.1).append (.cons (by decide) (.cons (by decide)
      (ih m hm (floatFree_obj.1 floatFree m hm) (depth + 1))))

/-- The indented text of a legible value is read back to the value. -/
theorem parse_pretty {v : Json} (legible : v.Legible) : parse v.pretty = .ok v := by
  rw [parse, pretty, String.toList_ofList]
  refine (reads_indented legible 0).ofChars fun hmark => ?_
  -- A byte order mark is not ASCII.
  have hlt := ascii_indented legible.floatFree 0 _ (List.mem_of_mem_head? hmark)
  exact absurd hlt (by decide)

example : (arr [str "𝄞\x7f\\\n", arr []]).pretty =
    "[\n  \"\\ud834\\udd1e\\u007f\\\\\\n\",\n  []\n]" := by decide

end WorkloadDrift.Json
