import Mathlib.Data.List.Pairwise
import Mathlib.Data.List.Nodup
import WorkloadDrift.Cancellation

/-!
# What cancels

The leaves that cancel are closed: with a leaf go the partners of all its values.
Each value has one partner on either side, so as often as it comes it goes.
-/
namespace WorkloadDrift
namespace Cancellation

theorem settle_backed (all : List Candidate) : ∀ c ∈ settle all, isBacked (settle all) c := by
  induction all using settle.induct with
  | case1 all hlt ih =>
    rw [settle, if_pos hlt]
    exact ih
  | case2 all hge =>
    rw [settle, if_neg hge]
    have hall : backed all = all :=
      List.filter_sublist.eq_of_length_le (Nat.le_of_not_lt hge)
    exact fun c hc => (List.mem_filter.1 (hall.symm ▸ hc)).2

theorem mem_of_mem_settle {all : List Candidate} : ∀ c ∈ settle all, c ∈ all := by
  induction all using settle.induct with
  | case1 all hlt ih =>
    rw [settle, if_pos hlt]
    exact fun c hc => List.mem_of_mem_filter (ih c hc)
  | case2 all hge =>
    rw [settle, if_neg hge]
    exact fun c hc => hc

section Options

variable {α β : Type} {f : α → Option β} {l : List α}

theorem mem_of_mapM {r : List β} (h : l.mapM f = some r) : ∀ a ∈ l, ∃ b ∈ r, f a = some b := by
  induction l generalizing r with
  | nil => simp
  | cons a l ih =>
    rw [List.mapM_cons] at h
    obtain ⟨b, hb, h⟩ := Option.bind_eq_some_iff.1 h
    obtain ⟨bs, hbs, h⟩ := Option.bind_eq_some_iff.1 h
    obtain rfl := Option.some.inj h
    intro a' ha'
    rcases List.mem_cons.1 ha' with rfl | ha'
    · exact ⟨b, by simp, hb⟩
    · obtain ⟨b', hb', hfa⟩ := ih hbs a' ha'
      exact ⟨b', List.mem_cons_of_mem _ hb', hfa⟩

theorem exists_mapM {p : β → Prop} (h : ∀ a ∈ l, ∃ b, f a = some b ∧ p b) :
    ∃ r, l.mapM f = some r ∧ ∀ b ∈ r, p b := by
  induction l with
  | nil => exact ⟨[], rfl, by simp⟩
  | cons a l ih =>
    obtain ⟨b, hb, hp⟩ := h a (by simp)
    obtain ⟨bs, hbs, hps⟩ := ih fun a' ha' => h a' (by simp [ha'])
    exact ⟨b :: bs, by simp [hb, hbs], by simpa using ⟨hp, hps⟩⟩

end Options

variable {leaves : List Node} {n : Node}

theorem partner?_eq_some {own other : Option Node} {h : String} :
    partner? n own other = some h ↔
      (∃ k, own = some k ∧ k.hash = n.hash) ∧ ∃ m, other = some m ∧ m.hash = h := by
  unfold partner?
  split
  · next hown =>
    have hown : ∃ k, own = some k ∧ k.hash = n.hash := Option.map_eq_some_iff.1 hown
    simp [hown]
  · next hown =>
    simp only [reduceCtorEq, false_iff, not_and]
    exact fun ⟨k, hk, heq⟩ => absurd (by simp [hk, heq]) hown

theorem lastInserting?_mem {v : String} (h : lastInserting? leaves v = some n) :
    n ∈ leaves ∧ v ∈ n.change.insert :=
  ⟨List.mem_reverse.1 (List.mem_of_find?_eq_some h), by simpa using List.find?_some h⟩

theorem lastRemoving?_mem {v : String} (h : lastRemoving? leaves v = some n) :
    n ∈ leaves ∧ v ∈ n.change.remove :=
  ⟨List.mem_reverse.1 (List.mem_of_find?_eq_some h), by simpa using List.find?_some h⟩

theorem exists_lastInserting? {v : String} (hn : n ∈ leaves) (hv : v ∈ n.change.insert) :
    ∃ m, lastInserting? leaves v = some m := by
  rw [← Option.isSome_iff_exists, lastInserting?, List.find?_isSome]
  exact ⟨n, List.mem_reverse.2 hn, by simpa using hv⟩

theorem exists_lastRemoving? {v : String} (hn : n ∈ leaves) (hv : v ∈ n.change.remove) :
    ∃ m, lastRemoving? leaves v = some m := by
  rw [← Option.isSome_iff_exists, lastRemoving?, List.find?_isSome]
  exact ⟨n, List.mem_reverse.2 hn, by simpa using hv⟩

/-- A leaf with partners is the last one on its side for each of its values, and the last one on
the other side is a partner. -/
theorem partners?_eq_some {partners : List String} (h : partners? leaves n = some partners) :
    (∀ v ∈ n.change.insert, (∃ k, lastInserting? leaves v = some k ∧ k.hash = n.hash) ∧
      ∃ m, lastRemoving? leaves v = some m ∧ m.hash ∈ partners) ∧
    (∀ v ∈ n.change.remove, (∃ k, lastRemoving? leaves v = some k ∧ k.hash = n.hash) ∧
      ∃ m, lastInserting? leaves v = some m ∧ m.hash ∈ partners) := by
  unfold partners? at h
  split at h
  · simp at h
  · obtain ⟨ofInsert, hinsert, h⟩ := Option.bind_eq_some_iff.1 h
    obtain ⟨ofRemove, hremove, h⟩ := Option.bind_eq_some_iff.1 h
    obtain rfl := Option.some.inj h
    constructor
    · intro v hv
      obtain ⟨_, hb, hpartner⟩ := mem_of_mapM hinsert v hv
      obtain ⟨hown, m, hm, rfl⟩ := partner?_eq_some.1 hpartner
      exact ⟨hown, m, hm, List.mem_append_left _ hb⟩
    · intro v hv
      obtain ⟨_, hb, hpartner⟩ := mem_of_mapM hremove v hv
      obtain ⟨hown, m, hm, rfl⟩ := partner?_eq_some.1 hpartner
      exact ⟨hown, m, hm, List.mem_append_right _ hb⟩

/-- The leaves that cancel. -/
def canceling (leaves : List Node) : List Node := leaves.filter fun n => n.hash ∈ matched leaves

theorem mem_canceling : n ∈ canceling leaves ↔ n ∈ leaves ∧ n.hash ∈ matched leaves := by
  simp [canceling]

/-- A leaf that cancels is the last one on its side for each of its values, and the last one on the
other side cancels too. -/
theorem partner_of_mem_canceling (distinct : (leaves.map (·.hash)).Nodup)
    (h : n ∈ canceling leaves) :
    (∀ v ∈ n.change.insert, lastInserting? leaves v = some n ∧
      ∃ m ∈ canceling leaves, lastRemoving? leaves v = some m) ∧
    (∀ v ∈ n.change.remove, lastRemoving? leaves v = some n ∧
      ∃ m ∈ canceling leaves, lastInserting? leaves v = some m) := by
  obtain ⟨hn, hmatched⟩ := mem_canceling.1 h
  obtain ⟨c, hc, hhash⟩ := List.mem_map.1 hmatched
  obtain ⟨n', hn', hcandidate⟩ := List.mem_filterMap.1 (mem_of_mem_settle c hc)
  obtain ⟨partners, hpartners, rfl⟩ := Option.map_eq_some_iff.1 hcandidate
  have heq {k : Node} (hk : k ∈ leaves) (hhash : k.hash = n.hash) : k = n :=
    List.inj_on_of_nodup_map distinct hk hn hhash
  obtain rfl := heq hn' hhash
  have hbacked {m : Node} (hm : m ∈ leaves) (hpartner : m.hash ∈ partners) : m ∈ canceling leaves := by
    obtain ⟨d, hd, hdm⟩ : ∃ d ∈ settle (candidates leaves), d.hash = m.hash := by
      simpa using List.all_eq_true.1 (settle_backed _ _ hc) _ hpartner
    exact mem_canceling.2 ⟨hm, List.mem_map.2 ⟨d, hd, hdm⟩⟩
  obtain ⟨hinsert, hremove⟩ := partners?_eq_some hpartners
  constructor
  · intro v hv
    obtain ⟨⟨k, hk, hkn⟩, m, hm, hpartner⟩ := hinsert v hv
    rw [heq (lastInserting?_mem hk).1 hkn] at hk
    exact ⟨hk, m, hbacked (lastRemoving?_mem hm).1 hpartner, hm⟩
  · intro v hv
    obtain ⟨⟨k, hk, hkn⟩, m, hm, hpartner⟩ := hremove v hv
    rw [heq (lastRemoving?_mem hk).1 hkn] at hk
    exact ⟨hk, m, hbacked (lastInserting?_mem hm).1 hpartner, hm⟩

/-- A class of leaves that can cancel together: each has a value, is the last leaf on its side for
each of its values, and the last one on the other side is in the class too. -/
structure Closed (leaves : List Node) (S : Node → Prop) : Prop where
  mem : ∀ n, S n → n ∈ leaves
  edited : ∀ n, S n → (n.change.insert.isEmpty && n.change.remove.isEmpty) = false
  insert : ∀ n, S n → ∀ v ∈ n.change.insert,
    lastInserting? leaves v = some n ∧ ∃ m, S m ∧ lastRemoving? leaves v = some m
  remove : ∀ n, S n → ∀ v ∈ n.change.remove,
    lastRemoving? leaves v = some n ∧ ∃ m, S m ∧ lastInserting? leaves v = some m

theorem closed_canceling (distinct : (leaves.map (·.hash)).Nodup) :
    Closed leaves (· ∈ canceling leaves) where
  mem n hn := (mem_canceling.1 hn).1
  edited n hn := by
    obtain ⟨hn, hmatched⟩ := mem_canceling.1 hn
    obtain ⟨c, hc, hhash⟩ := List.mem_map.1 hmatched
    obtain ⟨m, hm, hcandidate⟩ := List.mem_filterMap.1 (mem_of_mem_settle c hc)
    obtain ⟨partners, hpartners, rfl⟩ := Option.map_eq_some_iff.1 hcandidate
    obtain rfl : m = n := List.inj_on_of_nodup_map distinct hm hn hhash
    unfold partners? at hpartners
    split at hpartners
    · simp at hpartners
    · next hedited => simpa using hedited
  insert n hn := (partner_of_mem_canceling distinct hn).1
  remove n hn := (partner_of_mem_canceling distinct hn).2

theorem partner?_self {m : Node} : partner? n (some n) (some m) = some m.hash :=
  partner?_eq_some.2 ⟨⟨n, rfl, rfl⟩, m, rfl, rfl⟩

namespace Closed

variable {S : Node → Prop}

/-- The partners of a leaf of a closed class are in it. -/
theorem exists_partners (h : Closed leaves S) (hn : S n) :
    ∃ partners, partners? leaves n = some partners ∧ ∀ p ∈ partners, ∃ m, S m ∧ m.hash = p := by
  have hofInsert : ∀ v ∈ n.change.insert, ∃ p,
      partner? n (lastInserting? leaves v) (lastRemoving? leaves v) = some p ∧
        ∃ m, S m ∧ m.hash = p := by
    intro v hv
    obtain ⟨hown, m, hm, hother⟩ := h.insert n hn v hv
    exact ⟨m.hash, by rw [hown, hother, partner?_self], m, hm, rfl⟩
  have hofRemove : ∀ v ∈ n.change.remove, ∃ p,
      partner? n (lastRemoving? leaves v) (lastInserting? leaves v) = some p ∧
        ∃ m, S m ∧ m.hash = p := by
    intro v hv
    obtain ⟨hown, m, hm, hother⟩ := h.remove n hn v hv
    exact ⟨m.hash, by rw [hown, hother, partner?_self], m, hm, rfl⟩
  obtain ⟨ofInsert, heqInsert, hmemInsert⟩ := exists_mapM hofInsert
  obtain ⟨ofRemove, heqRemove, hmemRemove⟩ := exists_mapM hofRemove
  refine ⟨ofInsert ++ ofRemove, ?_, fun p hp => ?_⟩
  · simp [partners?, h.edited n hn, heqInsert, heqRemove]
  · exact (List.mem_append.1 hp).elim (hmemInsert p) (hmemRemove p)

/-- The candidates of a closed class back one another, so none of them is ever dropped. -/
theorem exists_mem_settle {all : List Candidate}
    (hall : ∀ n, S n → ∃ c ∈ all, c.hash = n.hash ∧ ∀ p ∈ c.partners, ∃ m, S m ∧ m.hash = p)
    (hn : S n) : ∃ c ∈ settle all, c.hash = n.hash := by
  induction all using settle.induct with
  | case1 all hlt ih =>
    rw [settle, if_pos hlt]
    refine ih fun n hn => ?_
    obtain ⟨c, hc, hhash, hpartners⟩ := hall n hn
    refine ⟨c, List.mem_filter.2 ⟨hc, List.all_eq_true.2 fun p hp => ?_⟩, hhash, hpartners⟩
    obtain ⟨m, hm, rfl⟩ := hpartners p hp
    obtain ⟨d, hd, hdm, -⟩ := hall m hm
    exact List.any_eq_true.2 ⟨d, hd, by simpa using hdm⟩
  | case2 all hge =>
    rw [settle, if_neg hge]
    obtain ⟨c, hc, hhash, -⟩ := hall n hn
    exact ⟨c, hc, hhash⟩

/-- Whatever can cancel together does: the leaves that cancel are the greatest closed class. -/
theorem mem_canceling (h : Closed leaves S) (hn : S n) : n ∈ canceling leaves := by
  have hcandidates : ∀ n, S n → ∃ c ∈ candidates leaves, c.hash = n.hash ∧
      ∀ p ∈ c.partners, ∃ m, S m ∧ m.hash = p := by
    intro n hn
    obtain ⟨partners, hsome, hpartners⟩ := h.exists_partners hn
    exact ⟨⟨n.hash, partners⟩, List.mem_filterMap.2 ⟨n, h.mem n hn, by simp [hsome]⟩, rfl, hpartners⟩
  obtain ⟨c, hc, hhash⟩ := exists_mem_settle hcandidates hn
  exact Cancellation.mem_canceling.2 ⟨h.mem n hn, List.mem_map.2 ⟨c, hc, hhash⟩⟩

end Closed

theorem nodup_of_hashes (distinct : (leaves.map (·.hash)).Nodup) : leaves.Nodup := distinct.of_map _

theorem countP_eq_one {α : Type} [DecidableEq α] {l : List α} (hl : l.Nodup) {a : α} (ha : a ∈ l)
    {p : α → Bool} (hp : ∀ b ∈ l, p b ↔ b = a) : l.countP p = 1 := by
  rw [List.countP_congr (q := (· == a)) fun b hb => by simpa using hp b hb]
  exact List.count_eq_one_of_mem hl ha

/-- As many of the leaves that cancel insert a value as remove it. -/
theorem countP_canceling (distinct : (leaves.map (·.hash)).Nodup) (v : String) :
    (canceling leaves).countP (v ∈ ·.change.insert) =
      (canceling leaves).countP (v ∈ ·.change.remove) := by
  have hnodup : (canceling leaves).Nodup := (nodup_of_hashes distinct).filter _
  have hpartner {n : Node} (hn : n ∈ canceling leaves) := partner_of_mem_canceling distinct hn
  by_cases hany : ∃ n ∈ canceling leaves, v ∈ n.change.insert
  · obtain ⟨n, hn, hv⟩ := hany
    obtain ⟨hown, m, hm, hother⟩ := (hpartner hn).1 v hv
    rw [countP_eq_one hnodup hn fun k hk => ?_, countP_eq_one hnodup hm fun k hk => ?_]
    · rw [decide_eq_true_iff]
      constructor
      · intro hkv
        exact Option.some.inj (((hpartner hk).2 v hkv).1.symm.trans hother)
      · rintro rfl
        exact (lastRemoving?_mem hother).2
    · rw [decide_eq_true_iff]
      constructor
      · intro hkv
        exact Option.some.inj (((hpartner hk).1 v hkv).1.symm.trans hown)
      · rintro rfl
        exact hv
  · have hnone : ¬ ∃ m ∈ canceling leaves, v ∈ m.change.remove := by
      rintro ⟨m, hm, hv⟩
      obtain ⟨-, n, hn, hother⟩ := (hpartner hm).2 v hv
      exact hany ⟨n, hn, (lastInserting?_mem hother).2⟩
    rw [List.countP_eq_zero.2 fun n hn => by simpa using fun hv => hany ⟨n, hn, hv⟩,
      List.countP_eq_zero.2 fun m hm => by simpa using fun hv => hnone ⟨m, hm, hv⟩]

theorem eq_of_mem_flatMap {α β : Type} {l : List α} {f : α → List β} (h : (l.flatMap f).Nodup)
    {a b : α} (ha : a ∈ l) (hb : b ∈ l) {x : β} (hxa : x ∈ f a) (hxb : x ∈ f b) : a = b := by
  by_contra hne
  have hsymm : Std.Symm (Function.onFun List.Disjoint f) := ⟨fun _ _ hd _ hb ha => hd ha hb⟩
  exact (List.nodup_flatMap.1 h).2.forall ha hb hne hxa hxb

theorem lastInserting?_eq_self (hinsert : (leaves.flatMap (·.change.insert)).Nodup) (hn : n ∈ leaves)
    {v : String} (hv : v ∈ n.change.insert) : lastInserting? leaves v = some n := by
  obtain ⟨k, hk⟩ := exists_lastInserting? hn hv
  obtain ⟨hkmem, hkv⟩ := lastInserting?_mem hk
  rw [hk, eq_of_mem_flatMap hinsert hkmem hn hkv hv]

theorem lastRemoving?_eq_self (hremove : (leaves.flatMap (·.change.remove)).Nodup) (hn : n ∈ leaves)
    {v : String} (hv : v ∈ n.change.remove) : lastRemoving? leaves v = some n := by
  obtain ⟨k, hk⟩ := exists_lastRemoving? hn hv
  obtain ⟨hkmem, hkv⟩ := lastRemoving?_mem hk
  rw [hk, eq_of_mem_flatMap hremove hkmem hn hkv hv]

/-- A value that only comes keeps its leaf. -/
theorem matched_singleton {v : String} (hinsert : n.change.insert = [v])
    (hremove : v ∉ n.change.remove) : matched [n] = [] := by
  have hnone : partners? [n] n = none := by
    have hlast : lastRemoving? [n] v = none := by simp [lastRemoving?, hremove]
    simp [partners?, hinsert, hlast, partner?]
  have hcandidates : candidates [n] = [] := by simp [candidates, hnone]
  rw [matched, hcandidates, settle]
  rfl

/-- When the values that come are those that go, every leaf cancels exactly if no value comes
twice. -/
theorem forall_mem_matched_iff (distinct : (leaves.map (·.hash)).Nodup)
    (hinsert : ∀ n ∈ leaves, n.change.insert.Nodup)
    (hedits : ∀ n ∈ leaves, (n.change.insert.isEmpty && n.change.remove.isEmpty) = false)
    (hperm : (leaves.flatMap (·.change.insert)).Perm (leaves.flatMap (·.change.remove))) :
    (∀ n ∈ leaves, n.hash ∈ matched leaves) ↔ (leaves.flatMap (·.change.insert)).Nodup := by
  constructor
  · intro hall
    have hmem {n : Node} (hn : n ∈ leaves) : n ∈ canceling leaves := mem_canceling.2 ⟨hn, hall n hn⟩
    refine List.nodup_flatMap.2 ⟨hinsert, (nodup_of_hashes distinct).imp_of_mem ?_⟩
    intro n m hn hm hne v hvn hvm
    have hlast := ((partner_of_mem_canceling distinct (hmem hn)).1 v hvn).1
    rw [((partner_of_mem_canceling distinct (hmem hm)).1 v hvm).1] at hlast
    exact hne (Option.some.inj hlast).symm
  · intro hnodup
    have hremoved : (leaves.flatMap (·.change.remove)).Nodup := hperm.nodup_iff.1 hnodup
    have hclosed : Closed leaves (· ∈ leaves) := by
      refine ⟨fun _ hn => hn, hedits, fun n hn v hv => ?_, fun n hn v hv => ?_⟩
      · obtain ⟨m, hm, hvm⟩ := List.mem_flatMap.1 (hperm.mem_iff.1 (List.mem_flatMap.2 ⟨n, hn, hv⟩))
        exact ⟨lastInserting?_eq_self hnodup hn hv, m, hm, lastRemoving?_eq_self hremoved hm hvm⟩
      · obtain ⟨m, hm, hvm⟩ := List.mem_flatMap.1 (hperm.mem_iff.2 (List.mem_flatMap.2 ⟨n, hn, hv⟩))
        exact ⟨lastRemoving?_eq_self hremoved hn hv, m, hm, lastInserting?_eq_self hnodup hm hvm⟩
    exact fun n hn => (mem_canceling.1 (hclosed.mem_canceling hn)).2

end Cancellation
end WorkloadDrift
