import Mathlib.Data.List.Chain
import WorkloadDrift.Proofs.EditScript.Shortest

/-!
# The shape of scripts

Of all shortest scripts the search returns the one that keeps the common beginning of both
sequences, and between two kept elements removes before it inserts. For a removal right
behind an insertion would lead back to the diagonal that the insertion started from, and
the neighbour on its other side reaches further by then.
-/
namespace WorkloadDrift.EditScript

variable {α : Type} {a b : Array α} {d i j : Nat}

/-! ## Tidy edits -/

/-- Whether an edit may stand right before another: an insertion not before a removal. -/
def MayPrecede (e f : Edit α) : Prop := ¬ (e.kind = .insert ∧ f.kind = .remove)

/-- Edits, latest first, with no removal right behind an insertion. -/
def Tidy (edits : List (Edit α)) : Prop := edits.IsChain fun f e => MayPrecede e f

theorem Tidy.cons {f : Edit α} {edits : List (Edit α)} (h : Tidy edits)
    (hf : ∀ e ∈ edits.head?, MayPrecede e f) : Tidy (f :: edits) :=
  List.isChain_cons.2 ⟨hf, h⟩

/-- A path that goes on along a run of elements that both sequences share. -/
def Path.extend (p : Path α) (run : List α) : Path α :=
  ⟨p.x + run.length, (run.map (Edit.mk .keep)).reverse ++ p.edits⟩

theorem Tidy.extend {p : Path α} (h : Tidy p.edits) (run : List α) : Tidy (p.extend run).edits := by
  induction run using List.reverseRecOn with
  | nil => exact h
  | append_singleton run v ih =>
    have hedits : (p.extend (run ++ [v])).edits = ⟨.keep, v⟩ :: (p.extend run).edits := by
      simp [Path.extend]
    rw [hedits]
    exact ih.cons fun e _ => by simp [MayPrecede]

theorem Path.run_eq_nil {p : Path α} {run : List α} {e : Edit α}
    (he : e ∈ (p.extend run).edits.head?) (hkind : e.kind ≠ .keep) : run = [] := by
  rcases run.eq_nil_or_concat with rfl | ⟨run, v, rfl⟩
  · rfl
  · obtain rfl : ⟨.keep, v⟩ = e := by simpa [extend] using he
    exact absurd rfl hkind

/-- Edits that keep nothing and never remove right behind an insertion remove first. -/
theorem exists_removed_inserted {block : List (Edit α)} (hchain : block.IsChain MayPrecede)
    (hblock : ∀ e ∈ block, e.kind ≠ .keep) : ∃ removed inserted : List α,
      block = removed.map (Edit.mk .remove) ++ inserted.map (Edit.mk .insert) := by
  induction block with
  | nil => exact ⟨[], [], rfl⟩
  | cons e block ih =>
    obtain ⟨hhead, htail⟩ := List.isChain_cons.1 hchain
    obtain ⟨removed, inserted, rfl⟩ := ih htail fun f hf => hblock f (List.mem_cons_of_mem _ hf)
    obtain ⟨kind, v⟩ := e
    cases kind with
    | keep => exact absurd rfl (hblock _ List.mem_cons_self)
    | remove => exact ⟨v :: removed, inserted, rfl⟩
    | insert =>
      cases removed with
      | nil => exact ⟨[], v :: inserted, rfl⟩
      | cons w removed => exact absurd ⟨rfl, rfl⟩ (hhead ⟨.remove, w⟩ (by simp))

/-! ## What a round does -/

theorem advance_eq_insert {last : List (Path α)} (hdown : goesDown last (d + 1) i)
    (hdiagonal : 2 * i ≤ (last.getD i .start).x + d) {v : α}
    (hv : b[column d i (last.getD i .start).x]? = some v) :
    advance a b last (d + 1) i =
      ⟨(last.getD i .start).x, ⟨.insert, v⟩ :: (last.getD i .start).edits⟩ := by
  have hcolumn : column (d + 1) i (last.getD i .start).x = column d i (last.getD i .start).x + 1 := by
    unfold column
    omega
  simp only [advance, hdown, if_true, true_and, hcolumn, Nat.le_add_left, Nat.add_sub_cancel, hv]

theorem advance_eq_remove {last : List (Path α)} (hright : goesDown last (d + 1) i = false) {v : α}
    (hv : a[(last.getD (i - 1) .start).x]? = some v) :
    advance a b last (d + 1) i =
      ⟨(last.getD (i - 1) .start).x + 1, ⟨.remove, v⟩ :: (last.getD (i - 1) .start).edits⟩ := by
  simp only [advance, hright, Bool.false_eq_true, if_false, false_and, Nat.le_add_left, if_true,
    Nat.add_sub_cancel, hv]

theorem le_of_goesDown_eq_false {last : List (Path α)} (hright : goesDown last d i = false)
    (hi : i ≠ d) : (last.getD i .start).x ≤ (last.getD (i - 1) .start).x := by
  simp only [goesDown, Bool.or_eq_false_iff, decide_eq_false_iff_not, Bool.and_eq_false_imp,
    decide_eq_true_iff] at hright
  exact Nat.le_of_not_lt (hright.2 hi)

variable [DecidableEq α]

theorem exists_run_follow (budget y : Nat) (p : Path α) :
    ∃ run, follow a b budget y p = p.extend run := by
  induction budget generalizing y p with
  | zero => exact ⟨[], by simp [follow, Path.extend]⟩
  | succ budget ih =>
    unfold follow
    split
    · next u v _ _ =>
      split
      · obtain ⟨run, hrun⟩ := ih (y + 1) ⟨p.x + 1, ⟨.keep, u⟩ :: p.edits⟩
        exact ⟨u :: run, by simp [hrun, Path.extend, Nat.add_assoc, Nat.add_comm 1]⟩
      · exact ⟨[], by simp [Path.extend]⟩
    · exact ⟨[], by simp [Path.extend]⟩

/-- Whether the path on diagonal `i` of round `d` ends in the grid. -/
structure InGrid (a b : Array α) (d i : Nat) : Prop where
  x_le : (furthest a b d i).x ≤ a.size
  column_le : column d i (furthest a b d i).x ≤ b.size

/-- The first path is a run. -/
theorem exists_run_furthest_zero (a b : Array α) :
    ∃ run, furthest a b 0 0 = Path.start.extend run := by
  have hadvance : advance a b (fronts a b 0) 0 0 = .start := by
    simp [advance, goesDown, fronts, initialFrontier, Path.start, column]
  rw [furthest, reach, hadvance]
  exact exists_run_follow _ _ _

/-- A path that ends in the grid comes from one of the round before that does: by an insertion on the
same diagonal, or by a removal on the diagonal before it where the path on the same diagonal reaches
no further. Behind that is a run. -/
theorem furthest_cases (hi : i ≤ d + 1) (hgrid : InGrid a b (d + 1) i) :
    (i ≤ d ∧ InGrid a b d i ∧ ∃ v run, furthest a b (d + 1) i =
      Path.extend ⟨(furthest a b d i).x, ⟨.insert, v⟩ :: (furthest a b d i).edits⟩ run) ∨
    (∃ j, i = j + 1 ∧ InGrid a b d j ∧ (i ≤ d → (furthest a b d i).x ≤ (furthest a b d j).x) ∧
      ∃ v run, furthest a b (d + 1) i =
        Path.extend ⟨(furthest a b d j).x + 1, ⟨.remove, v⟩ :: (furthest a b d j).edits⟩ run) := by
  obtain ⟨hx, hy⟩ := hgrid
  unfold column at hy
  have hle : (advance a b (fronts a b (d + 1)) (d + 1) i).x ≤ (furthest a b (d + 1) i).x :=
    (stands_furthest hi).2
  obtain ⟨run, hrun⟩ : ∃ run, furthest a b (d + 1) i =
      (advance a b (fronts a b (d + 1)) (d + 1) i).extend run := exists_run_follow _ _ _
  have hadvance : (advance a b (fronts a b (d + 1)) (d + 1) i).x = _ := x_advance
  cases hdown : goesDown (fronts a b (d + 1)) (d + 1) i with
  | true =>
    have hid := le_of_goesDown hdown hi
    have hdiagonal := (stands_furthest (a := a) (b := b) hid).1.onDiagonal
    rw [hdown, if_pos rfl, getD_fronts hid] at hadvance
    have hinside : column d i (furthest a b d i).x < b.size := by
      unfold column
      omega
    have hstep := advance_eq_insert (a := a) hdown (by rwa [getD_fronts hid])
      (by rw [getD_fronts hid]; exact Array.getElem?_eq_getElem hinside)
    rw [getD_fronts hid] at hstep
    rw [hstep] at hrun
    exact .inl ⟨hid, ⟨by omega, hinside.le⟩, _, run, hrun⟩
  | false =>
    obtain ⟨j, rfl⟩ : ∃ j, i = j + 1 := Nat.exists_eq_succ_of_ne_zero (pos_of_goesDown hdown).ne'
    have hjd : j ≤ d := by omega
    have hdiagonal := (stands_furthest (a := a) (b := b) hjd).1.onDiagonal
    rw [hdown, if_neg Bool.false_ne_true, Nat.add_sub_cancel, getD_fronts hjd] at hadvance
    have hinside : (furthest a b d j).x < a.size := by omega
    have hstep := advance_eq_remove (b := b) hdown
      (by rw [Nat.add_sub_cancel, getD_fronts hjd]; exact Array.getElem?_eq_getElem hinside)
    rw [Nat.add_sub_cancel, getD_fronts hjd] at hstep
    rw [hstep] at hrun
    refine .inr ⟨j, rfl, ⟨hinside.le, ?_⟩, fun hid => ?_, _, run, hrun⟩
    · unfold column
      omega
    · have hfurther := le_of_goesDown_eq_false hdown (by omega)
      rwa [Nat.add_sub_cancel, getD_fronts hid, getD_fronts hjd] at hfurther

/-! ## Removals before insertions -/

/-- A path with an insertion last came straight down from the round before. -/
theorem exists_x_eq_of_insert_last (hj : j ≤ d) (hgrid : InGrid a b d j) {e : Edit α}
    (he : e ∈ (furthest a b d j).edits.head?) (hinsert : e.kind = .insert) :
    ∃ d', d = d' + 1 ∧ j ≤ d' ∧ (furthest a b d j).x = (furthest a b d' j).x := by
  have hkind : e.kind ≠ .keep := by simp [hinsert]
  cases d with
  | zero =>
    obtain rfl : j = 0 := by omega
    obtain ⟨run, hrun⟩ := exists_run_furthest_zero a b
    rw [hrun] at he
    rw [Path.run_eq_nil he hkind] at he
    simp [Path.extend, Path.start] at he
  | succ d =>
    obtain ⟨hjd, -, v, run, hpath⟩ | ⟨j, rfl, -, -, v, run, hpath⟩ := furthest_cases hj hgrid
    · rw [hpath] at he
      refine ⟨d, rfl, hjd, ?_⟩
      rw [hpath, Path.run_eq_nil he hkind]
      rfl
    · rw [hpath] at he
      rw [Path.run_eq_nil he hkind] at he
      obtain rfl : ⟨.remove, v⟩ = e := by simpa [Path.extend] using he
      cases hinsert

theorem tidy_furthest (hi : i ≤ d) (hgrid : InGrid a b d i) : Tidy (furthest a b d i).edits := by
  induction d generalizing i with
  | zero =>
    obtain rfl : i = 0 := by omega
    obtain ⟨run, hrun⟩ := exists_run_furthest_zero a b
    rw [hrun]
    exact Tidy.extend (p := .start) .nil run
  | succ d ih =>
    obtain ⟨hid, hbefore, v, run, hpath⟩ | ⟨j, rfl, hbefore, hfurther, v, run, hpath⟩ :=
      furthest_cases hi hgrid
    · rw [hpath]
      exact ((ih hid hbefore).cons fun e _ => by simp [MayPrecede]).extend run
    · have hjd : j ≤ d := by omega
      rw [hpath]
      refine ((ih hjd hbefore).cons fun e he ⟨hinsert, _⟩ => ?_).extend run
      -- After an insertion the path on the other side would have reached further.
      obtain ⟨d', rfl, hjd', hx⟩ := exists_x_eq_of_insert_last hjd hbefore he hinsert
      have hback := hfurther (by omega)
      rw [hx] at hback
      exact absurd (furthest_lt_right hjd') (Nat.not_lt.2 hback)

/-! ## The common beginning -/

theorem exists_before (hi : i ≤ d + 1) (hgrid : InGrid a b (d + 1) i) :
    ∃ j ≤ d, InGrid a b d j ∧ (furthest a b d j).edits <:+ (furthest a b (d + 1) i).edits := by
  obtain ⟨hid, hbefore, v, run, hpath⟩ | ⟨j, rfl, hbefore, -, v, run, hpath⟩ :=
    furthest_cases hi hgrid
  · refine ⟨i, hid, hbefore, ?_⟩
    rw [hpath]
    exact (List.suffix_cons _ _).trans (List.suffix_append _ _)
  · refine ⟨j, by omega, hbefore, ?_⟩
    rw [hpath]
    exact (List.suffix_cons _ _).trans (List.suffix_append _ _)

/-- Every path that ends in the grid begins with the first run. -/
theorem first_run_suffix (hi : i ≤ d) (hgrid : InGrid a b d i) :
    InGrid a b 0 0 ∧ (furthest a b 0 0).edits <:+ (furthest a b d i).edits := by
  induction d generalizing i with
  | zero =>
    obtain rfl : i = 0 := by omega
    exact ⟨hgrid, List.suffix_rfl⟩
  | succ d ih =>
    obtain ⟨j, hjd, hbefore, hsuffix⟩ := exists_before hi hgrid
    obtain ⟨hfirst, hrun⟩ := ih hjd hbefore
    exact ⟨hfirst, hrun.trans hsuffix⟩

/-- The first run goes on for as long as both sequences agree. -/
theorem prefix_first_run (hgrid : InGrid a b 0 0) {p : List α} (hpa : p <+: a.toList)
    (hpb : p <+: b.toList) : p.map (Edit.mk .keep) <+: (furthest a b 0 0).edits.reverse := by
  obtain ⟨run, hrun⟩ := exists_run_furthest_zero a b
  have hedits : (furthest a b 0 0).edits.reverse = run.map (Edit.mk .keep) := by
    simp [hrun, Path.extend, Path.start]
  have hx : (furthest a b 0 0).x = run.length := by simp [hrun, Path.extend, Path.start]
  have hcolumn : column 0 0 run.length = run.length := column_eq (by omega)
  have hstands := (stands_furthest (a := a) (b := b) (Nat.zero_le 0)).1
  have hturns := hstands.arrives.turns hgrid.x_le hgrid.column_le
  have hblocked := hstands.blocked
  rw [hedits, hx, hcolumn] at hturns
  rw [hx, hcolumn] at hblocked
  have hbegins : run <+: a.toList := by
    have hsource := hturns.source
    rw [source, valuesWith_map, if_pos (by decide)] at hsource
    rw [hsource]
    exact List.take_prefix _ _
  rw [hedits]
  apply List.IsPrefix.map
  rcases Nat.lt_or_ge run.length p.length with hlonger | hshorter
  · exact absurd (getElem?_of_isPrefix hpb hlonger) (hblocked _ (getElem?_of_isPrefix hpa hlonger))
  · exact List.prefix_of_prefix_length_le hpa hbegins hshorter

/-! ## Scripts -/

/-- A path that is complete as early as the corner can be reached ends in the grid. -/
theorem inGrid_of_isComplete (hi : i ≤ d) (hcomplete : isComplete a b d i (furthest a b d i))
    (earliest : ∀ d' < d, ¬ Reaches a b d' a.size b.size) : InGrid a b d i := by
  obtain ⟨d', hle, hreaches⟩ := (stands_furthest hi).1.reaches_corner hcomplete
  have hlate : d ≤ d' := Nat.le_of_not_lt fun hlt => earliest d' hlt hreaches
  exact ⟨by omega, by omega⟩

/-- The script is what a path carries that ends in the grid. -/
theorem exists_path_editScript (a b : List α) : ∃ d i, i ≤ d ∧ InGrid a.toArray b.toArray d i ∧
    editScript a b = (furthest a.toArray b.toArray d i).edits.reverse ∧
    Turns (editScript a b) a b d := by
  obtain ⟨d, hd, hreaches, hearliest⟩ := exists_fewest a.toArray b.toArray
  rw [List.size_toArray, List.size_toArray] at hd
  obtain ⟨i, hi, hcomplete⟩ := exists_complete hreaches
  obtain ⟨j, hj, hcomplete, hsome⟩ := exists_finished? hi hcomplete
  have hscript : editScript a b = (furthest a.toArray b.toArray d j).edits.reverse :=
    search_eq (Nat.zero_le d) (by omega) (exists_finished_script hreaches hearliest).1 hsome
  refine ⟨d, j, hj, inGrid_of_isComplete hj hcomplete hearliest, hscript, ?_⟩
  rw [hscript]
  exact (stands_furthest hj).1.turns hcomplete hearliest

end EditScript

open EditScript

/-- The script keeps all that both sequences have in common at the beginning, and never removes right
behind an insertion. So between two kept elements it removes first and inserts then, and between
sequences that share no element it removes the one and inserts the other. -/
theorem editScript_tidy {α : Type} [DecidableEq α] (a b : List α) :
    (∀ p, p <+: a → p <+: b → p.map (.mk .keep) <+: editScript a b) ∧
    (editScript a b).IsChain MayPrecede ∧
    (∀ before block after, editScript a b = before ++ block ++ after →
      (∀ e ∈ block, e.kind ≠ .keep) → ∃ removed inserted : List α,
        block = removed.map (.mk .remove) ++ inserted.map (.mk .insert)) ∧
    ((∀ v ∈ a, v ∉ b) → editScript a b = a.map (.mk .remove) ++ b.map (.mk .insert)) := by
  obtain ⟨d, i, hi, hgrid, hscript, hturns⟩ := exists_path_editScript a b
  have hchain : (editScript a b).IsChain MayPrecede := by
    rw [hscript, List.isChain_reverse]
    exact tidy_furthest hi hgrid
  refine ⟨fun p hpa hpb => ?_, hchain, fun before block after heq => ?_, fun hdisjoint => ?_⟩
  · obtain ⟨hfirst, hsuffix⟩ := first_run_suffix hi hgrid
    rw [hscript]
    exact (prefix_first_run hfirst hpa hpb).trans (List.reverse_prefix.2 hsuffix)
  · have hinside : block.IsChain MayPrecede := List.IsChain.infix hchain ⟨before, after, heq.symm⟩
    exact exists_removed_inserted hinside
  · have hkept : kept (editScript a b) = [] := by
      rw [List.eq_nil_iff_forall_not_mem]
      intro v hv
      have hva := (kept_sublist_source _).subset hv
      have hvb := (kept_sublist_target _).subset hv
      rw [hturns.source] at hva
      rw [hturns.target] at hvb
      exact hdisjoint v hva hvb
    have hchanges : ∀ e ∈ editScript a b, e.kind ≠ .keep := by
      simpa [kept, valuesWith] using hkept
    obtain ⟨removed, inserted, hsplit⟩ := exists_removed_inserted hchain hchanges
    have hsource := hturns.source
    have htarget := hturns.target
    rw [hsplit] at hsource htarget ⊢
    simp only [source, target, valuesWith_append, valuesWith_map] at hsource htarget
    obtain rfl : removed = a := by simpa using hsource
    obtain rfl : inserted = b := by simpa using htarget
    rfl

/-- One element is replaced between two that are kept, and of two sequences without a common element
the first one goes as a whole. -/
theorem editScript_tidy_replacing :
    ['a'] <+: ['a', 'b', 'c'] ∧ ['a'] <+: ['a', 'x', 'c', 'd'] ∧
      [⟨.keep, 'a'⟩] <+: editScript ['a', 'b', 'c'] ['a', 'x', 'c', 'd'] ∧
      (∃ removed inserted : List Char, [⟨.remove, 'b'⟩, ⟨.insert, 'x'⟩] =
        removed.map (Edit.mk .remove) ++ inserted.map (.mk .insert)) ∧
      editScript ['u', 'v'] ['w'] = [⟨.remove, 'u'⟩, ⟨.remove, 'v'⟩, ⟨.insert, 'w'⟩] := by
  obtain ⟨hbeginning, -, hblocks, -⟩ := editScript_tidy ['a', 'b', 'c'] ['a', 'x', 'c', 'd']
  obtain ⟨-, -, -, hdisjoint⟩ := editScript_tidy ['u', 'v'] ['w']
  have ha : ['a'] <+: ['a', 'b', 'c'] := by decide
  have hb : ['a'] <+: ['a', 'x', 'c', 'd'] := by decide
  have hscript : editScript ['a', 'b', 'c'] ['a', 'x', 'c', 'd'] =
      [⟨.keep, 'a'⟩] ++ [⟨.remove, 'b'⟩, ⟨.insert, 'x'⟩] ++ [⟨.keep, 'c'⟩, ⟨.insert, 'd'⟩] := by
    decide
  exact ⟨ha, hb, hbeginning _ ha hb, hblocks _ _ _ hscript (by simp), hdisjoint (by simp)⟩

end WorkloadDrift
