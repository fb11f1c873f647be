import BoundPage.Proofs.Surface.Copies
/-!
# Levels

On a rooted surface every live node is some number of steps below a node without a parent.  The number is its level, a
node has only one, and there are more slots than levels.  So the depths that reading and copying allow are enough: a
walk visits exactly what is below its node, and each node once.
-/
namespace BoundPage
namespace Surface

/-- The live node is a number of steps below one without a parent. -/
def Level (s : Surface) : Nat → Slot → Prop
  | 0, k => (s.node k).live ∧ (s.node k).parent = none
  | n + 1, k => ∃ p, (s.node k).parent = some p ∧ s.Level n p

/-- **Linked, and every live node has a level**: no node is below itself. -/
structure Rooted (s : Surface) : Prop extends Linked s where
  level : ∀ {k}, (s.node k).live → ∃ n, s.Level n k

namespace Level

variable {s t : Surface}

theorem unique : ∀ {n m : Nat} {k : Slot}, s.Level n k → s.Level m k → n = m
  | 0, 0, _, _, _ => rfl
  | 0, _ + 1, _, h, ⟨_, hp, _⟩ => by rw [h.2] at hp; cases hp
  | _ + 1, 0, _, ⟨_, hp, _⟩, h => by rw [h.2] at hp; cases hp
  | n + 1, m + 1, _, ⟨p, hp, hn⟩, ⟨q, hq, hm⟩ => by
    rw [hp] at hq
    obtain rfl := Option.some.inj hq
    rw [unique hn hm]

theorem child (hs : s.Linked) {n : Nat} {a b : Slot} (h : s.Level n a) (hc : s.Child a b) : s.Level (n + 1) b :=
  ⟨a, (hs.child hc).2.2, h⟩

/-- The ancestors of a node are as many as its level. -/
theorem exists_ancestors (hs : s.Linked) : ∀ {n : Nat} {k : Slot}, s.Level n k →
    ∃ above : Finset Slot, above.card = n + 1 ∧ ∀ j ∈ above, (s.node j).live ∧ ∃ m ≤ n, s.Level m j
  | 0, k, h => ⟨{k}, rfl, fun j hj => by rw [Finset.mem_singleton.1 hj]; exact ⟨h.1, 0, Nat.le_refl _, h⟩⟩
  | n + 1, k, h => by
    obtain ⟨p, hp, hn⟩ := h
    obtain ⟨above, hcard, hall⟩ := exists_ancestors hs hn
    have hk : k ∉ above := fun hc => by
      obtain ⟨-, m, hm, hl⟩ := hall k hc
      have := unique hl (show s.Level (n + 1) k from ⟨p, hp, hn⟩)
      omega
    refine ⟨insert k above, by rw [Finset.card_insert_of_notMem hk, hcard], fun j hj => ?_⟩
    rcases Finset.mem_insert.1 hj with rfl | hj
    · exact ⟨(hs.parent hp).1, n + 1, Nat.le_refl _, p, hp, hn⟩
    · obtain ⟨hl, m, hm, hlm⟩ := hall j hj
      exact ⟨hl, m, Nat.le_succ_of_le hm, hlm⟩

/-- **There are more slots than levels.** -/
theorem lt_size (hs : s.Linked) {n : Nat} {k : Slot} (h : s.Level n k) : n < s.size := by
  obtain ⟨above, hcard, hall⟩ := exists_ancestors hs h
  have hsub : above ⊆ s.liveSet := fun j hj => mem_liveSet.2 (hall j hj).1
  have hle := Finset.card_le_card hsub
  have := s.card_liveSet_le
  omega

theorem below (hs : s.Linked) {n : Nat} {a b : Slot} (h : s.Level n a) (hb : s.Below a b) :
    ∃ d, s.Level (n + d) b ∧ (d = 0 → b = a) := by
  induction hb with
  | refl => exact ⟨0, h, fun _ => rfl⟩
  | tail _ hc ih =>
    obtain ⟨d, hd, -⟩ := ih
    exact ⟨d + 1, hd.child hs hc, fun h0 => absurd h0 (Nat.succ_ne_zero d)⟩

theorem not_below_of_child (hs : s.Linked) {n : Nat} {a b : Slot} (h : s.Level n a) (hc : s.Child a b) :
    ¬ s.Below b a := fun hb => by
  obtain ⟨d, hd, -⟩ := (h.child hs hc).below hs hb
  have := unique h hd
  omega

theorem of_parents (hlive : ∀ k, (s.node k).live → (t.node k).live) (hs : s.Linked) : ∀ {n : Nat} {k : Slot},
    (∀ j, s.Below j k → (t.node j).parent = (s.node j).parent) → s.Level n k → t.Level n k
  | 0, k, hp, h => ⟨hlive k h.1, by rw [hp k (.refl k)]; exact h.2⟩
  | n + 1, k, hp, ⟨p, hkp, h⟩ =>
    ⟨p, by rw [hp k (.refl k)]; exact hkp,
      of_parents hlive hs (fun j hj => hp j (hj.tail (hs.parent hkp).2)) h⟩

end Level

/-! ## Above a node -/

/-- Two nodes above the same one are above each other, one way round. -/
theorem Below.comparable {s : Surface} (hs : s.Linked) {a b c : Slot} (ha : s.Below a c) (hb : s.Below b c) :
    s.Below a b ∨ s.Below b a := by
  induction ha with
  | refl => exact .inr hb
  | tail hac hcd ih =>
    cases hb with
    | refl => exact .inl (hac.tail hcd)
    | tail hbe hed =>
      obtain rfl := hs.unique_parent hcd hed
      exact ih hbe

theorem Level.eq_of_below {s : Surface} (hs : s.Linked) {n : Nat} {a b c : Slot} (ha : s.Level n a)
    (hb : s.Level n b) (hac : s.Below a c) (hbc : s.Below b c) : a = b := by
  rcases hac.comparable hs hbc with h | h
  · obtain ⟨d, hd, he⟩ := ha.below hs h
    have := Level.unique hb hd
    exact (he (by omega)).symm
  · obtain ⟨d, hd, he⟩ := hb.below hs h
    have := Level.unique ha hd
    exact he (by omega)

theorem Level.exists_top {s : Surface} (hs : s.Linked) : ∀ {n : Nat} {k : Slot}, s.Level n k →
    ∃ r, (s.node r).live ∧ (s.node r).parent = none ∧ s.Below r k
  | 0, k, h => ⟨k, h.1, h.2, .refl k⟩
  | _ + 1, _, ⟨_, hp, h⟩ => by
    obtain ⟨r, hl, hr, hb⟩ := exists_top hs h
    exact ⟨r, hl, hr, hb.tail (hs.parent hp).2⟩

/-! ## Walks -/

namespace Level

variable {s : Surface}

/-- What is left of the slots is enough for the levels below a node. -/
theorem shallow (hs : s.Linked) : ∀ {n : Nat} (d : Nat) {h : Slot}, s.Level n h → s.size ≤ n + d + 1 → s.Shallow d h
  | n, 0, h, hl, hd => by
    refine List.eq_nil_iff_forall_not_mem.2 fun c hc => ?_
    have := (hl.child hs (b := c) hc).lt_size hs
    omega
  | _, d + 1, _, hl, hd => fun _ hc => shallow hs d (hl.child hs hc) (by omega)

theorem nodup_walk (hs : s.Linked) : ∀ {n : Nat} (d : Nat) {h : Slot}, s.Level n h → (s.walk d h).Nodup
  | _, 0, _, _ => List.nodup_nil
  | n, d + 1, h, hl => by
    rw [walk_succ, List.nodup_cons, List.nodup_flatMap]
    refine ⟨fun hc => ?_, fun c hc => nodup_walk hs d (hl.child hs hc), ?_⟩
    · obtain ⟨c, hc, hk⟩ := List.mem_flatMap.1 hc
      exact hl.not_below_of_child hs hc (below_of_mem_walk hk)
    · refine (hs.nodup_children h).imp_of_mem fun {a b} ha hb hne k hka hkb => hne ?_
      exact (hl.child hs ha).eq_of_below hs (hl.child hs hb) (below_of_mem_walk hka) (below_of_mem_walk hkb)

end Level

namespace Rooted

variable {s : Surface}

theorem size_pos {h : Slot} (hl : (s.node h).live) : s.size - 1 < s.size :=
  Nat.sub_lt (Nat.lt_of_le_of_lt (Nat.zero_le h) (lt_size_of_live s hl)) Nat.zero_lt_one

theorem shallow (hs : s.Rooted) {h : Slot} (hl : (s.node h).live) : s.Shallow (s.size - 1) h := by
  obtain ⟨n, hn⟩ := hs.level hl
  exact hn.shallow hs.toLinked _ (by omega)

theorem mem_subtree (hs : s.Rooted) {h k : Slot} (hl : (s.node h).live) : k ∈ s.subtree h ↔ s.Below h k :=
  (hs.shallow hl).mem_walk _ (size_pos hl)

theorem walk_eq (hs : s.Rooted) {h : Slot} (hl : (s.node h).live) {d : Nat} (hd : s.size ≤ d) :
    s.walk d h = s.subtree h :=
  (hs.shallow hl).walk_eq _ _ (Nat.lt_of_lt_of_le (size_pos hl) hd) (size_pos hl)

theorem markupWithin_eq (hs : s.Rooted) {h : Slot} (hl : (s.node h).live) {d : Nat} (hd : s.size ≤ d) :
    s.markupWithin d h = s.markupOf h :=
  (hs.shallow hl).markupWithin_eq _ _ (Nat.lt_of_lt_of_le (size_pos hl) hd) (size_pos hl)

theorem nodup_subtree (hs : s.Rooted) {h : Slot} (hl : (s.node h).live) : (s.subtree h).Nodup := by
  obtain ⟨n, hn⟩ := hs.level hl
  exact hn.nodup_walk hs.toLinked _

/-- The description of a node holds the nodes of its tree in document order. -/
theorem nodes_markupOf (hs : s.Rooted) {h : Slot} (hl : (s.node h).live) :
    (s.markupOf h).nodes = (s.subtree h).map fun k => (s.node k).described :=
  (hs.shallow hl).nodes_markupWithin _ (size_pos hl)

/-- The description of a node is what it is itself, with the descriptions of its children. -/
theorem markupOf_eq (hs : s.Rooted) {h : Slot} (hl : (s.node h).live) :
    s.markupOf h = { (s.node h).described with children := (s.node h).children.map s.markupOf } := by
  rw [← hs.markupWithin_eq hl (Nat.le_succ s.size), markupWithin_succ]
  rfl

/-- **Nodes below which nothing differs are described alike.** -/
theorem markupOf_congr {t : Surface} (hs : s.Rooted) (ht : t.Rooted) {h : Slot} (hl : (s.node h).live)
    (hsame : ∀ k, s.Below h k → t.node k = s.node k) : t.markupOf h = s.markupOf h := by
  have htl : (t.node h).live := by rwa [hsame h (.refl h)]
  calc t.markupOf h = t.markupWithin (max s.size t.size) h := (ht.markupWithin_eq htl (Nat.le_max_right _ _)).symm
    _ = s.markupWithin (max s.size t.size) h := markupWithin_congr _ h hsame
    _ = s.markupOf h := hs.markupWithin_eq hl (Nat.le_max_left _ _)

end Rooted

/-! ## What keeps the levels -/

namespace Rooted

variable {s t : Surface}

theorem of_parents (hs : s.Rooted) (ht : t.Linked) (hlive : ∀ k, (t.node k).live → (s.node k).live)
    (hp : ∀ k, (t.node k).live → (t.node k).parent = (s.node k).parent) : t.Rooted where
  toLinked := ht
  level {k} hk := by
    obtain ⟨n, hn⟩ := hs.level (hlive k hk)
    refine ⟨n, ?_⟩
    induction n generalizing k with
    | zero => exact ⟨hk, by rw [hp k hk]; exact hn.2⟩
    | succ n ih =>
      obtain ⟨p, hkp, hn⟩ := hn
      have hkp' : (t.node k).parent = some p := by rw [hp k hk]; exact hkp
      exact ⟨p, hkp', ih (ht.parent_live hkp') hn⟩

theorem sameTree (hs : s.Rooted) (h : SameTree s t) : t.Rooted :=
  hs.of_parents (h.linked hs.toLinked) (fun k hk => by rwa [h.live] at hk) fun k _ => h.parent k

end Rooted

end Surface
end BoundPage
