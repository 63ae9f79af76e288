import WorkloadDrift.Proofs.Digest
import WorkloadDrift.Proofs.Json.Numerals

/-!
# What is written is read back

The automaton takes the text of a value from wherever it waits for one, and goes
on with what stands behind the value. So the compact text of a value is read back
to that value.
-/
namespace WorkloadDrift.Json

theorem tokens_of_dropWhile {cs rest : List Char} {c : Char} (h : cs.dropWhile isSpace = c :: rest) :
    tokens cs = ⟨(takeToken (c :: rest)).1, c :: rest⟩ :: tokens (takeToken (c :: rest)).2 := by
  have hlt : (takeToken (c :: rest)).2.length < cs.length :=
    calc (takeToken (c :: rest)).2.length
        < (c :: rest).length := Nat.lt_succ_of_le (takeToken_cons_suffix c rest).length_le
      _ ≤ cs.length := (h ▸ List.dropWhile_suffix (l := cs) isSpace).length_le
  rw [tokens]
  split
  · next heq => simp [h] at heq
  · next c' rest' heq =>
    obtain ⟨rfl, rfl⟩ := List.cons.inj (h.symm.trans heq)
    dsimp only
    rw [if_pos hlt]

/-- The automaton after the tokens of a text. -/
def State.run (s : State) (text : List Char) : Except Stop State :=
  (tokens text).foldlM State.step s

theorem State.run_cons {c : Char} {cs rest : List Char} {token : Token}
    (hc : isSpace c = false) (htake : takeToken (c :: cs) = (token, rest)) (s : State) :
    s.run (c :: cs) = s.step ⟨token, c :: cs⟩ >>= fun s' => s'.run rest := by
  have hdrop : (c :: cs).dropWhile isSpace = c :: cs := by simp [hc]
  unfold State.run
  rw [tokens_of_dropWhile hdrop, htake, List.foldlM_cons]

/-- Blanks before a token are not told from none. -/
theorem State.run_space {c : Char} (hc : isSpace c = true) (cs : List Char) (s : State) :
    s.run (c :: cs) = s.run cs := by
  have hdrop : (c :: cs).dropWhile isSpace = cs.dropWhile isSpace := by simp [hc]
  unfold State.run
  -- The first token is the same, and behind it both texts have the same rest.
  cases h : cs.dropWhile isSpace with
  | nil => rw [tokens, tokens, hdrop, h]
  | cons d rest => rw [tokens_of_dropWhile (hdrop.trans h), tokens_of_dropWhile h]

theorem State.run_nil (s : State) : s.run [] = .ok s := by
  unfold State.run
  rw [tokens]
  rfl

/-- A state that waits for a value, with the stack that the value goes to. -/
inductive State.Awaits : State → List Frame → Prop
  | value (stack : List Frame) : Awaits (.awaitValue stack) stack
  | firstItem (stack : List Frame) : Awaits (.awaitFirstItem stack) (.array [] :: stack)

theorem State.Awaits.step {s : State} {stack : List Frame} {t : Placed} (h : s.Awaits stack)
    (ht : t.token ≠ .closeBracket) : s.step t = State.begin stack t := by
  cases h with
  | value => rfl
  | firstItem stack =>
    unfold State.step
    split <;> simp_all

def Blank (gap : List Char) : Prop := ∀ c ∈ gap, isSpace c = true

theorem blank_nil : Blank [] := by simp [Blank]

theorem State.run_blank {gap : List Char} (h : Blank gap) (cs : List Char) (s : State) :
    s.run (gap ++ cs) = s.run cs := by
  induction gap with
  | nil => rfl
  | cons c gap ih =>
    obtain ⟨hc, hgap⟩ := List.forall_mem_cons.1 h
    rw [List.cons_append, State.run_space hc, ih hgap]

/-- A text that is read as a value wherever one is awaited. -/
def Reads (cs : List Char) (v : Json) : Prop :=
  ∀ s stack rest, State.Awaits s stack → EndsValue rest →
    s.run (cs ++ rest) = (State.supply v stack).run rest

theorem Reads.after_blank {gap cs : List Char} {v : Json} (h : Reads cs v) (hgap : Blank gap) :
    Reads (gap ++ cs) v := by
  intro s stack rest hs hrest
  rw [List.append_assoc, State.run_blank hgap, h s stack rest hs hrest]

/-! ## Scalars -/

theorem takeToken_number {c : Char} {cs rest : List Char} {token : Token}
    (hc : c.isDigit ∨ c = '-') (hliteral : takeLiteral (c :: cs) = none)
    (hnumber : takeNumber (c :: cs) = some (token, rest)) : takeToken (c :: cs) = (token, rest) := by
  unfold takeToken
  split
  case h_1 heq => cases heq
  case h_9 => simp [hliteral, hnumber]
  all_goals
    next heq =>
    obtain ⟨rfl, -⟩ := List.cons.inj heq
    exact absurd hc (by decide)

theorem takeLiteral_digit {c : Char} (hc : c.isDigit) (cs : List Char) :
    takeLiteral (c :: cs) = none ∧ takeLiteral ('-' :: c :: cs) = none := by
  have hne (d : Char) (hd : d.isDigit = false) : (d == c) = false := by
    rw [beq_eq_false_iff_ne]
    rintro rfl
    simp [hd] at hc
  simp [takeLiteral, literals, List.isPrefixOf, hne]

theorem isSpace_of_isDigit {c : Char} (hc : c.isDigit) : isSpace c = false := by
  by_contra hspace
  simp only [isSpace, Bool.not_eq_false, Bool.or_eq_true, decide_eq_true_eq] at hspace
  rcases hspace with ((rfl | rfl) | rfl) | rfl <;> exact absurd hc (by decide)

theorem reads_int {n : Int} (hn : Decimal.Readable n) : Reads (Decimal.ofInt n) (.int n) := by
  intro s stack rest hs hrest
  have hnumber := takeNumber_ofInt hn hrest
  cases n with
  | ofNat n =>
    obtain ⟨c, cs, hcs, hc⟩ := digits_eq_cons n
    rw [Decimal.ofInt, hcs, List.cons_append] at hnumber ⊢
    have htoken := takeToken_number (.inl hc) (takeLiteral_digit hc _).1 hnumber
    rw [State.run_cons (isSpace_of_isDigit hc) htoken, hs.step (by simp)]
    rfl
  | negSucc n =>
    obtain ⟨c, cs, hcs, hc⟩ := digits_eq_cons (n + 1)
    rw [Decimal.ofInt, hcs, List.cons_append, List.cons_append] at hnumber ⊢
    have htoken := takeToken_number (.inr rfl) (takeLiteral_digit hc _).2 hnumber
    rw [State.run_cons rfl htoken, hs.step (by simp)]
    rfl

theorem State.run_quote {escape : Char → List Char} (h : Escapes escape) (name : String)
    (rest : List Char) (s : State) : s.run (quote escape name ++ rest) =
      s.step ⟨.text name, quote escape name ++ rest⟩ >>= fun s' => s'.run rest := by
  have htoken : takeToken (quote escape name ++ rest) = (.text name, rest) := by
    simp [quote, takeToken, h.takeText_append]
  exact State.run_cons (by decide) htoken s

theorem reads_str {escape : Char → List Char} (h : Escapes escape) (text : String) :
    Reads (quote escape text) (.str text) := by
  intro s stack rest hs _
  rw [State.run_quote h, hs.step (by simp)]
  rfl

theorem reads_null : Reads "null".toList .null := by
  intro s stack rest hs _
  have htoken : takeToken ('n' :: ("ull".toList ++ rest)) = (.scalar .null, rest) := by
    simp [takeToken, takeLiteral, literals]
  change s.run ('n' :: ("ull".toList ++ rest)) = _
  rw [State.run_cons rfl htoken, hs.step (by simp)]
  rfl

theorem reads_bool (b : Bool) : Reads (writeBool b) (.bool b) := by
  intro s stack rest hs _
  cases b with
  | false =>
    have htoken : takeToken ('f' :: ("alse".toList ++ rest)) = (.scalar (.bool false), rest) := by
      simp [takeToken, takeLiteral, literals]
    change s.run ('f' :: ("alse".toList ++ rest)) = _
    rw [State.run_cons rfl htoken, hs.step (by simp)]
    rfl
  | true =>
    have htoken : takeToken ('t' :: ("rue".toList ++ rest)) = (.scalar (.bool true), rest) := by
      simp [takeToken, takeLiteral, literals]
    change s.run ('t' :: ("rue".toList ++ rest)) = _
    rw [State.run_cons rfl htoken, hs.step (by simp)]
    rfl

/-! ## Arrays and objects -/

theorem endsValue_close {gap : List Char} (hgap : Blank gap) {close : Char}
    (hclose : close = ']' ∨ close = '}') (rest : List Char) : EndsValue (gap ++ close :: rest) := by
  cases gap with
  | nil => rcases hclose with rfl | rfl <;> simp [EndsValue]
  | cons c gap =>
    have hc : isSpace c = true := hgap c (by simp)
    simp only [isSpace, Bool.or_eq_true, decide_eq_true_eq] at hc
    rcases hc with ((rfl | rfl) | rfl) | rfl <;> simp [EndsValue]

theorem endsValue_followers {α : Type} (write : α → List Char) {gap : List Char} (hgap : Blank gap)
    {close : Char} (hclose : close = ']' ∨ close = '}') (as : List α) (rest : List Char) :
    EndsValue (as.flatMap (fun a => ',' :: write a) ++ (gap ++ close :: rest)) := by
  cases as with
  | nil => exact endsValue_close hgap hclose rest
  | cons a as => simp [EndsValue]

section Items

variable {write : Json → List Char} {gap : List Char}

/-- The items behind the first ones, up to the closing bracket. -/
theorem run_items (hgap : Blank gap) {items : List Json} (hitems : ∀ v ∈ items, Reads (write v) v)
    (before : List Json) (stack : List Frame) (rest : List Char) :
    (State.afterItem before stack).run
        (items.flatMap (fun v => ',' :: write v) ++ (gap ++ ']' :: rest)) =
      (State.supply (.arr (before.reverse ++ items)) stack).run rest := by
  induction items generalizing before with
  | nil =>
    rw [List.append_nil, List.flatMap_nil, List.nil_append, State.run_blank hgap]
    exact State.run_cons rfl rfl _
  | cons v items ih =>
    have hfollow := endsValue_followers write hgap (.inl rfl) items rest
    calc (State.afterItem before stack).run
          ((v :: items).flatMap (fun v => ',' :: write v) ++ (gap ++ ']' :: rest))
        = (State.awaitValue (.array before :: stack)).run
            (write v ++ (items.flatMap (fun v => ',' :: write v) ++ (gap ++ ']' :: rest))) := by
          rw [List.flatMap_cons, List.append_assoc]
          exact State.run_cons rfl rfl _
      _ = (State.afterItem (v :: before) stack).run
            (items.flatMap (fun v => ',' :: write v) ++ (gap ++ ']' :: rest)) :=
          hitems v (by simp) _ _ _ (.value _) hfollow
      _ = _ := by
          rw [ih (fun u hu => hitems u (by simp [hu]))]
          simp

/-- Items that are read are read as an array when they stand between brackets. -/
theorem reads_arr (hgap : Blank gap) {items : List Json} (hitems : ∀ v ∈ items, Reads (write v) v) :
    Reads ('[' :: (joinWith [','] (items.map write) ++ (gap ++ [']']))) (.arr items) := by
  intro s stack rest hs _
  have hopen (cs : List Char) : s.run ('[' :: cs) = (State.awaitFirstItem stack).run cs := by
    rw [State.run_cons rfl rfl, hs.step (by simp)]
    rfl
  rw [List.cons_append, List.append_assoc, List.append_assoc, hopen]
  cases items with
  | nil =>
    rw [List.map_nil, joinWith, List.nil_append, State.run_blank hgap]
    exact State.run_cons rfl rfl _
  | cons v items =>
    have hfollow := endsValue_followers write hgap (.inl rfl) items rest
    rw [List.singleton_append, joined_cons, hitems v (by simp) _ _ _ (.firstItem stack) hfollow]
    exact run_items hgap (fun u hu => hitems u (by simp [hu])) [v] stack rest

end Items

/-- A state that waits for a name, with the members before it. -/
inductive State.AwaitsName : State → Members → List Frame → Prop
  | name (members : Members) (stack : List Frame) :
      AwaitsName (.awaitName members stack) members stack
  | firstName (stack : List Frame) : AwaitsName (.awaitFirstName stack) [] stack

theorem Members.set_of_notMem {name : String} {v : Json} {members : Members}
    (h : name ∉ members.map (·.1)) : members.set name v = members ++ [(name, v)] := by
  induction members with
  | nil => rfl
  | cons m members ih =>
    simp only [List.map_cons, List.mem_cons, not_or] at h
    rw [Members.set, if_neg (Ne.symm h.1), ih h.2, List.cons_append]

/-- A text that is read as a member wherever a name is awaited that did not come up before. -/
def ReadsMember (cs : List Char) (m : String × Json) : Prop :=
  ∀ s before stack rest, State.AwaitsName s before stack → m.1 ∉ before.map (·.1) → EndsValue rest →
    s.run (cs ++ rest) = (State.afterMember (before ++ [m]) stack).run rest

theorem ReadsMember.after_blank {gap cs : List Char} {m : String × Json} (h : ReadsMember cs m)
    (hgap : Blank gap) : ReadsMember (gap ++ cs) m := by
  intro s before stack rest hs hnew hrest
  rw [List.append_assoc, State.run_blank hgap, h s before stack rest hs hnew hrest]

theorem reads_member {escape : Char → List Char} (h : Escapes escape) {text : List Char}
    {m : String × Json} (hm : Reads text m.2) : ReadsMember (quote escape m.1 ++ ':' :: text) m := by
  intro s before stack rest hs hnew hrest
  calc s.run (quote escape m.1 ++ ':' :: text ++ rest)
      = (State.awaitColon before m.1 stack).run (':' :: (text ++ rest)) := by
        rw [List.append_assoc, List.cons_append, State.run_quote h]
        cases hs <;> rfl
    _ = (State.awaitValue (.object before m.1 :: stack)).run (text ++ rest) :=
        State.run_cons rfl rfl _
    _ = (State.afterMember (before ++ [m]) stack).run rest := by
        rw [hm _ _ _ (.value _) hrest, State.supply, Members.set_of_notMem hnew]

section Members

variable {write : String × Json → List Char} {gap : List Char}

/-- The members behind the first ones, up to the closing brace. -/
theorem run_members (hgap : Blank gap) {members : Members}
    (hmembers : ∀ m ∈ members, ReadsMember (write m) m) {before : Members}
    (distinct : ((before ++ members).map (·.1)).Nodup) (stack : List Frame) (rest : List Char) :
    (State.afterMember before stack).run
        (members.flatMap (fun m => ',' :: write m) ++ (gap ++ '}' :: rest)) =
      (State.supply (.obj (before ++ members)) stack).run rest := by
  induction members generalizing before with
  | nil =>
    rw [List.append_nil, List.flatMap_nil, List.nil_append, State.run_blank hgap]
    exact State.run_cons rfl rfl _
  | cons m members ih =>
    have hfollow := endsValue_followers write hgap (.inr rfl) members rest
    have hnew : m.1 ∉ before.map (·.1) := by
      simp only [List.map_append, List.map_cons, List.nodup_append] at distinct
      exact fun h => distinct.2.2 _ h _ (by simp) rfl
    have hsplit : before ++ m :: members = (before ++ [m]) ++ members := by simp
    rw [hsplit] at distinct ⊢
    calc (State.afterMember before stack).run
          ((m :: members).flatMap (fun m => ',' :: write m) ++ (gap ++ '}' :: rest))
        = (State.awaitName before stack).run (write m ++
            (members.flatMap (fun m => ',' :: write m) ++ (gap ++ '}' :: rest))) := by
          rw [List.flatMap_cons, List.append_assoc]
          exact State.run_cons rfl rfl _
      _ = (State.afterMember (before ++ [m]) stack).run
            (members.flatMap (fun m => ',' :: write m) ++ (gap ++ '}' :: rest)) :=
          hmembers m (by simp) _ _ _ _ (.name _ _) hnew hfollow
      _ = _ := ih (fun n hn => hmembers n (by simp [hn])) distinct

/-- Members with distinct names that are read are read as an object when they stand between
braces. -/
theorem reads_obj (hgap : Blank gap) {members : Members}
    (hmembers : ∀ m ∈ members, ReadsMember (write m) m) (distinct : (members.map (·.1)).Nodup) :
    Reads ('{' :: (joinWith [','] (members.map write) ++ (gap ++ ['}']))) (.obj members) := by
  intro s stack rest hs _
  have hopen (cs : List Char) : s.run ('{' :: cs) = (State.awaitFirstName stack).run cs := by
    rw [State.run_cons rfl rfl, hs.step (by simp)]
    rfl
  rw [List.cons_append, List.append_assoc, List.append_assoc, hopen]
  cases members with
  | nil =>
    rw [List.map_nil, joinWith, List.nil_append, State.run_blank hgap]
    exact State.run_cons rfl rfl _
  | cons m members =>
    have hfollow := endsValue_followers write hgap (.inr rfl) members rest
    rw [List.singleton_append, joined_cons,
      hmembers m (by simp) _ _ _ _ (.firstName stack) (by simp) hfollow]
    exact run_members hgap (fun n hn => hmembers n (by simp [hn])) distinct stack rest

end Members

/-! ## Whole texts -/

/-- A value that is read back from what is written of it: one without floats, whose objects have
each name once and whose integers are not too long to be read. -/
structure Legible (v : Json) : Prop where
  floatFree : v.FloatFree
  distinctNames : v.DistinctNames
  readable : v.ReadableIntegers

theorem legible_null : null.Legible := ⟨by simp, by simp, by simp⟩

theorem legible_bool (b : Bool) : (bool b).Legible where
  floatFree := by simp [FloatFree, Everywhere, kindName]
  distinctNames := by simp [DistinctNames, Everywhere]
  readable := by simp [ReadableIntegers, Everywhere]

theorem legible_str (s : String) : (str s).Legible := ⟨by simp, by simp, by simp⟩

theorem legible_int {n : Int} : (int n).Legible ↔ Decimal.Readable n :=
  ⟨fun h => readableIntegers_int.1 h.readable, fun h => ⟨by simp, by simp, by simpa using h⟩⟩

theorem legible_arr {items : List Json} : (arr items).Legible ↔ ∀ v ∈ items, v.Legible :=
  ⟨fun h v hv => ⟨floatFree_arr.1 h.floatFree v hv, distinctNames_arr.1 h.distinctNames v hv,
      readableIntegers_arr.1 h.readable v hv⟩,
    fun h => ⟨floatFree_arr.2 fun v hv => (h v hv).floatFree,
      distinctNames_arr.2 fun v hv => (h v hv).distinctNames,
      readableIntegers_arr.2 fun v hv => (h v hv).readable⟩⟩

theorem legible_obj {members : Members} :
    (obj members).Legible ↔ (members.map (·.1)).Nodup ∧ ∀ m ∈ members, m.2.Legible := by
  constructor
  · intro h
    obtain ⟨hnames, hdistinct⟩ := distinctNames_obj.1 h.distinctNames
    exact ⟨hnames, fun m hm => ⟨floatFree_obj.1 h.floatFree m hm, hdistinct m hm,
      readableIntegers_obj.1 h.readable m hm⟩⟩
  · rintro ⟨hnames, hmembers⟩
    exact ⟨floatFree_obj.2 fun m hm => (hmembers m hm).floatFree,
      distinctNames_obj.2 ⟨hnames, fun m hm => (hmembers m hm).distinctNames⟩,
      readableIntegers_obj.2 fun m hm => (hmembers m hm).readable⟩

theorem reads_compact {v : Json} (legible : v.Legible) : Reads (compact v) v := by
  induction v using induct with
  | null => exact reads_null
  | bool b => exact reads_bool b
  | int n => exact reads_int (legible_int.1 legible)
  | float x => exact absurd rfl legible.floatFree.kindName_ne
  | str s => exact reads_str escapes_plain s
  | arr items ih =>
    rw [compact, compactItems_eq_map]
    exact reads_arr blank_nil fun v hv => ih v hv (legible_arr.1 legible v hv)
  | obj members ih =>
    obtain ⟨hnames, hmembers⟩ := legible_obj.1 legible
    rw [compact, compactMembers_eq_map]
    exact reads_obj blank_nil
      (fun m hm => reads_member escapes_plain (ih m hm (hmembers m hm))) hnames

/-- A text that is read as a value wherever one is awaited is read as that value by itself. -/
theorem Reads.ofChars {cs : List Char} {v : Json} (h : Reads cs v)
    (hmark : cs.head? ≠ some '\uFEFF') : ofChars cs = .ok v := by
  have hended : EndsValue [] := by simp [EndsValue]
  have hrun := h _ _ [] (.value []) hended
  rw [List.append_nil, State.run_nil] at hrun
  have htokens : ofTokens (tokens cs) = .ok v := by
    unfold State.run at hrun
    simp only [ofTokens, hrun]
    rfl
  rw [Json.ofChars, if_neg hmark, htokens]

theorem ofChars_compact {v : Json} (legible : v.Legible) : ofChars (compact v) = .ok v := by
  refine (reads_compact legible).ofChars ?_
  cases v with
  | int n =>
    cases n with
    | ofNat n =>
      obtain ⟨c, cs, hcs, hc⟩ := digits_eq_cons n
      rw [compact, Decimal.ofInt, hcs]
      rintro ⟨⟩
      exact absurd hc (by decide)
    | negSucc n => exact fun h => absurd (Option.some.inj h) (by decide)
  | bool b => cases b <;> decide
  | float x => exact absurd rfl legible.floatFree.kindName_ne
  | null | str | arr | obj => exact fun h => absurd (Option.some.inj h) (by decide)

/-! ## No carriage returns -/

theorem return_notMem_escapePlain (c : Char) : '\r' ∉ escapePlain c := by
  unfold escapePlain escape?
  split
  case h_8 hreturn _ =>
    split
    · intro h
      simp only [Option.getD_some, unicodeEscape, List.mem_cons] at h
      rcases h with h | h | h
      · exact absurd h (by decide)
      · exact absurd h (by decide)
      · exact absurd (Hex.isSome_value?_of_mem_digits h) (by decide)
    · simpa using Ne.symm hreturn
  all_goals decide

theorem return_notMem_quote (s : String) : '\r' ∉ quote escapePlain s := by
  simp only [quote, List.mem_cons, List.mem_append, List.mem_flatMap, List.not_mem_nil, or_false,
    not_or, not_exists, not_and]
  exact ⟨by decide, fun c _ => return_notMem_escapePlain c, by decide⟩

theorem return_notMem_digits (n : Nat) : '\r' ∉ Decimal.digits n := by
  intro h
  exact absurd (Nat.isDigit_of_mem_toDigits (by decide) (by decide) h) (by decide)

theorem return_notMem_joined {α : Type} {write : α → List Char} {as : List α}
    (h : ∀ a ∈ as, '\r' ∉ write a) : '\r' ∉ joinWith [','] (as.map write) := by
  intro hmem
  rcases mem_joinWith hmem with hcomma | ⟨part, hpart, hmem⟩
  · exact absurd hcomma (by decide)
  · obtain ⟨a, ha, rfl⟩ := List.mem_map.1 hpart
    exact h a ha hmem

/-- Line ends within texts are escaped. -/
theorem return_notMem_compact {v : Json} (floatFree : v.FloatFree) : '\r' ∉ compact v := by
  induction v using induct with
  | null => decide
  | bool b => cases b <;> decide
  | int n =>
    cases n with
    | ofNat n => exact return_notMem_digits n
    | negSucc n =>
      intro h
      rcases List.mem_cons.1 h with h | h
      · exact absurd h (by decide)
      · exact return_notMem_digits _ h
  | float x => exact absurd rfl floatFree.kindName_ne
  | str s => exact return_notMem_quote s
  | arr items ih =>
    have hitems := return_notMem_joined fun v hv => ih v hv (floatFree_arr.1 floatFree v hv)
    simpa [compact, compactItems_eq_map] using hitems
  | obj members ih =>
    have hmembers : '\r' ∉ joinWith [','] (members.map compactMember) := by
      apply return_notMem_joined
      intro m hm
      simpa [compactMember, return_notMem_quote] using ih m hm (floatFree_obj.1 floatFree m hm)
    simpa [compact, compactMembers_eq_map] using hmembers

end WorkloadDrift.Json
