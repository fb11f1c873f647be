import Mathlib.Logic.Relation
import Mathlib.Data.Finset.Card
import BoundPage.Proofs.Surface.Slots
/-!
# Giving slots back

Releasing a node empties its slot and the slots of all nodes below it, whatever the links look like (`frees_release`):
a node that is emptied has been reached from the top one, and the children of an emptied node are emptied too.  The
depth that `release` allows is enough because every level empties one slot more.
-/
namespace BoundPage
namespace Surface

/-- The second node is a child of the first. -/
def Child (s : Surface) (a b : Slot) : Prop := b ∈ (s.node a).children

/-- The second node is the first one or below it. -/
def Below (s : Surface) : Slot → Slot → Prop := Relation.ReflTransGen s.Child

theorem Below.refl {s : Surface} (a : Slot) : s.Below a a := Relation.ReflTransGen.refl

theorem Below.mono {s t : Surface} (h : ∀ a b, s.Child a b → t.Child a b) {a b : Slot} (hb : s.Below a b) :
    t.Below a b :=
  Relation.ReflTransGen.mono h _ _ hb

/-- The slots in use, as a set. -/
def liveSet (s : Surface) : Finset Slot := s.liveSlots.toFinset

theorem mem_liveSet {s : Surface} {k : Slot} : k ∈ s.liveSet ↔ (s.node k).live := by
  unfold liveSet
  rw [List.mem_toFinset, mem_liveSlots]

theorem card_liveSet (s : Surface) : s.liveSet.card = s.liveCount :=
  List.toFinset_card_of_nodup s.nodup_liveSlots

theorem liveCount_le_size (s : Surface) : s.liveCount ≤ s.size := by
  unfold liveCount liveSlots
  exact Nat.le_trans (List.length_filter_le _ _) (by simp)

theorem card_liveSet_le (s : Surface) : s.liveSet.card ≤ s.size := s.card_liveSet ▸ s.liveCount_le_size

/-! ## What a release may do -/

/-- **Some nodes have been released, each with its children.** -/
structure Released (s t : Surface) : Prop where
  roots : t.roots = s.roots
  size : t.size = s.size
  node : ∀ k, t.node k = s.node k ∨ (s.node k).live ∧ t.node k = (s.node k).removed
  closed : ∀ {k c}, (s.node k).live → (t.node k).live = false → s.Child k c → (t.node c).live = false
  free : ∃ new, t.free = new ++ s.free ∧ new.Nodup ∧ ∀ k, k ∈ new ↔ (s.node k).live ∧ (t.node k).live = false

namespace Released

variable {s t u : Surface}

theorem refl (s : Surface) : Released s s where
  roots := rfl
  size := rfl
  node _ := .inl rfl
  closed hk hd := absurd hk (by simp [hd])
  free := ⟨[], rfl, List.nodup_nil, fun k => by simp⟩

theorem node_of_live (h : Released s t) {k : Slot} (hk : (t.node k).live) : t.node k = s.node k := by
  rcases h.node k with he | ⟨-, he⟩
  · exact he
  · rw [he] at hk; cases hk

theorem live_of_live (h : Released s t) {k : Slot} (hk : (t.node k).live) : (s.node k).live := by
  rw [← h.node_of_live hk]; exact hk

theorem dead_of_dead (h : Released s t) {k : Slot} (hk : (s.node k).live = false) : (t.node k).live = false := by
  by_contra hc
  have := h.live_of_live (by simpa using hc)
  simp [hk] at this

theorem child_of_child (h : Released s t) {a b : Slot} (hab : t.Child a b) : s.Child a b := by
  unfold Child at hab ⊢
  rcases h.node a with he | ⟨-, he⟩
  · rwa [he] at hab
  · rw [he] at hab; cases hab

theorem below_of_below (h : Released s t) {a b : Slot} (hab : t.Below a b) : s.Below a b :=
  hab.mono fun _ _ => h.child_of_child

theorem card_le (h : Released s t) : t.liveSet.card ≤ s.liveSet.card :=
  Finset.card_le_card fun _ hk => mem_liveSet.2 (h.live_of_live (mem_liveSet.1 hk))

theorem trans (h : Released s t) (h' : Released t u) : Released s u where
  roots := h'.roots.trans h.roots
  size := h'.size.trans h.size
  node k := by
    rcases h'.node k with he | ⟨hl, he⟩
    · rw [he]; exact h.node k
    · exact .inr ⟨h.live_of_live hl, by rw [he, h.node_of_live hl]⟩
  closed {k c} hk hd hc := by
    by_cases ht : (t.node k).live
    · refine h'.closed ht hd ?_
      unfold Child
      rw [h.node_of_live ht]
      exact hc
    · exact h'.dead_of_dead (h.closed hk (by simpa using ht) hc)
  free := by
    obtain ⟨n1, e1, d1, m1⟩ := h.free
    obtain ⟨n2, e2, d2, m2⟩ := h'.free
    refine ⟨n2 ++ n1, by rw [e2, e1, List.append_assoc], ?_, fun k => ?_⟩
    · rw [List.nodup_append]
      refine ⟨d2, d1, fun a ha b hb hab => ?_⟩
      subst hab
      have h2 := ((m2 a).1 ha).1
      rw [((m1 a).1 hb).2] at h2
      cases h2
    · rw [List.mem_append, m1, m2]
      constructor
      · rintro (⟨hl, hd⟩ | ⟨hl, hd⟩)
        · exact ⟨h.live_of_live hl, hd⟩
        · exact ⟨hl, h'.dead_of_dead hd⟩
      · rintro ⟨hl, hd⟩
        by_cases ht : (t.node k).live
        · exact .inl ⟨ht, hd⟩
        · exact .inr ⟨hl, by simpa using ht⟩

end Released

theorem FreeSlots.released {s t : Surface} (hs : s.FreeSlots) (h : Released s t) : t.FreeSlots where
  free_dead k hk := by
    obtain ⟨new, he, -, hm⟩ := h.free
    rw [he, List.mem_append, hm] at hk
    rw [h.size]
    rcases hk with ⟨hl, hd⟩ | hk
    · exact ⟨lt_size_of_live s hl, hd⟩
    · exact ⟨(hs.free_dead k hk).1, h.dead_of_dead (hs.free_dead k hk).2⟩
  nodup_free := by
    obtain ⟨new, he, hn, hm⟩ := h.free
    rw [he, List.nodup_append]
    refine ⟨hn, hs.nodup_free, fun a ha b hb hab => ?_⟩
    subst hab
    have hlive := ((hm a).1 ha).1
    rw [(hs.free_dead a hb).2] at hlive
    cases hlive

/-- **Some nodes have been released with all that is below them, and nothing else has.** -/
structure Frees (s : Surface) (cs : List Slot) (t : Surface) : Prop extends Released s t where
  gone : ∀ c ∈ cs, (t.node c).live = false
  reached : ∀ {k}, (s.node k).live → (t.node k).live = false → ∃ c ∈ cs, s.Below c k

namespace Frees

variable {s t u : Surface}

theorem nil (s : Surface) : Frees s [] s where
  toReleased := .refl s
  gone _ h := by cases h
  reached hl hd := absurd hl (by simp [hd])

theorem cons {c : Slot} {cs : List Slot} (h : Frees s [c] t) (h' : Frees t cs u) : Frees s (c :: cs) u where
  toReleased := h.toReleased.trans h'.toReleased
  gone d hd := by
    rcases List.mem_cons.1 hd with rfl | hd
    · exact h'.dead_of_dead (h.gone d (List.mem_singleton.2 rfl))
    · exact h'.gone d hd
  reached {k} hl hd := by
    by_cases ht : (t.node k).live
    · obtain ⟨d, hdc, hb⟩ := h'.reached ht hd
      exact ⟨d, List.mem_cons_of_mem _ hdc, h.below_of_below hb⟩
    · obtain ⟨d, hdc, hb⟩ := h.reached hl (by simpa using ht)
      exact ⟨d, by rw [List.mem_singleton.1 hdc]; exact List.mem_cons_self, hb⟩

theorem dead_of_below {cs : List Slot} (h : Frees s cs t) (hc : ∀ {a b}, s.Child a b → (s.node a).live) {c k : Slot}
    (hcs : c ∈ cs) (hb : s.Below c k) : (t.node k).live = false := by
  induction hb with
  | refl => exact h.gone c hcs
  | tail _ hab ih => exact h.closed (hc hab) ih hab

/-- **What is gone is exactly what is below the released nodes.** -/
theorem live_iff {cs : List Slot} (h : Frees s cs t) (hc : ∀ {a b}, s.Child a b → (s.node a).live) (k : Slot) :
    (t.node k).live ↔ (s.node k).live ∧ ∀ c ∈ cs, ¬ s.Below c k := by
  constructor
  · intro hk
    refine ⟨h.live_of_live hk, fun c hcs hb => ?_⟩
    rw [h.dead_of_below hc hcs hb] at hk
    cases hk
  · rintro ⟨hl, hn⟩
    by_contra hd
    obtain ⟨c, hcs, hb⟩ := h.reached hl (by simpa using hd)
    exact hn c hcs hb

end Frees

/-! ## The release of a node -/

theorem node_empty (s : Surface) {h : Slot} (hl : (s.node h).live) (k : Slot) :
    (s.empty h).node k = if k = h then (s.node h).removed else s.node k := by
  show (s.modify h Node.removed).node k = _
  rw [node_modify]
  by_cases hk : k = h
  · subst hk; simp [lt_size_of_live s hl]
  · simp [hk]

theorem card_liveSet_empty (s : Surface) {h : Slot} (hl : (s.node h).live) :
    (s.empty h).liveSet.card < s.liveSet.card := by
  refine Finset.card_lt_card (Finset.ssubset_iff_subset_ne.2 ⟨fun k hk => ?_, fun he => ?_⟩)
  · rw [mem_liveSet, node_empty s hl] at hk
    by_cases hkh : k = h
    · rw [if_pos hkh] at hk; cases hk
    · rw [if_neg hkh] at hk; exact mem_liveSet.2 hk
  · have : h ∈ (s.empty h).liveSet := by rw [he]; exact mem_liveSet.2 hl
    rw [mem_liveSet, node_empty s hl, if_pos rfl] at this
    cases this

theorem frees_foldl {f : Surface → Slot → Surface} {depth : Nat}
    (hf : ∀ s c, s.liveSet.card ≤ depth → Frees s [c] (f s c)) :
    ∀ (cs : List Slot) (s : Surface), s.liveSet.card ≤ depth → Frees s cs (cs.foldl f s)
  | [], s, _ => .nil s
  | c :: cs, s, hs =>
    (hf s c hs).cons (frees_foldl hf cs (f s c) (Nat.le_trans (hf s c hs).card_le hs))

theorem frees_releaseWithin : ∀ (depth : Nat) (s : Surface) (h : Slot), s.liveSet.card ≤ depth →
    Frees s [h] (s.releaseWithin depth h) := by
  intro depth
  induction depth with
  | zero =>
    intro s h hs
    have hd : (s.node h).live = false := by
      by_contra hc
      exact absurd (Finset.card_pos.2 ⟨h, mem_liveSet.2 (by simpa using hc)⟩) (by omega)
    rw [releaseWithin, if_neg (by simp [hd])]
    exact { Frees.nil s with
      gone := fun c hc => by rw [List.mem_singleton.1 hc]; exact hd
      reached := fun hl hd => absurd hl (by simp [hd]) }
  | succ depth ih =>
    intro s h hs
    by_cases hl : (s.node h).live
    · rw [releaseWithin, if_pos hl]
      have hcard := card_liveSet_empty s hl
      have hfold := frees_foldl ih (s.node h).children (s.empty h) (by omega)
      generalize (s.node h).children.foldl (releaseWithin depth) (s.empty h) = t at hfold
      have hne : ∀ {k}, k ≠ h → (s.empty h).node k = s.node k := fun hk => by rw [node_empty s hl, if_neg hk]
      have hself : (s.empty h).node h = (s.node h).removed := by rw [node_empty s hl, if_pos rfl]
      have hgone : (t.node h).live = false := hfold.dead_of_dead (by rw [hself]; rfl)
      have hchild : ∀ {a b}, (s.empty h).Child a b → s.Child a b := fun {a b} hab => by
        unfold Child at hab ⊢
        by_cases ha : a = h
        · subst ha; rw [hself] at hab; cases hab
        · rwa [hne ha] at hab
      refine { roots := hfold.roots, size := ?_, node := fun k => ?_, closed := ?_, free := ?_, gone := ?_,
               reached := ?_ }
      · rw [hfold.size]; exact size_modify s h _
      · by_cases hk : k = h
        · subst hk
          rcases hfold.node k with he | ⟨-, he⟩
          · exact .inr ⟨hl, by rw [he, hself]⟩
          · exact .inr ⟨hl, by rw [he, hself]; rfl⟩
        · rw [← hne hk]; exact hfold.node k
      · intro k c hk hd hc
        by_cases hkh : k = h
        · subst hkh; exact hfold.gone c hc
        · refine hfold.closed (by rw [hne hkh]; exact hk) hd ?_
          unfold Child
          rw [hne hkh]
          exact hc
      · obtain ⟨new, he, hn, hm⟩ := hfold.free
        have hh : h ∉ new := fun hc => by
          have := ((hm h).1 hc).1
          rw [hself] at this
          cases this
        refine ⟨new ++ [h], by rw [he, List.append_assoc]; rfl, ?_, fun k => ?_⟩
        · rw [← List.concat_eq_append]
          exact .concat hh hn
        · rw [List.mem_append, List.mem_singleton, hm]
          by_cases hk : k = h
          · subst hk; simp [hl, hgone]
          · simp [hk, hne hk]
      · intro c hc
        rw [List.mem_singleton.1 hc]; exact hgone
      · intro k hk hd
        refine ⟨h, List.mem_singleton.2 rfl, ?_⟩
        by_cases hkh : k = h
        · subst hkh; exact .refl k
        · obtain ⟨c, hc, hb⟩ := hfold.reached (by rw [hne hkh]; exact hk) hd
          exact Relation.ReflTransGen.head hc (hb.mono fun _ _ => hchild)
    · rw [releaseWithin, if_neg hl]
      exact { Frees.nil s with
        gone := fun c hc => by rw [List.mem_singleton.1 hc]; simpa using hl
        reached := fun hl hd => absurd hl (by simp [hd]) }

theorem frees_release (s : Surface) (h : Slot) : Frees s [h] (s.release h) :=
  frees_releaseWithin s.size s h s.card_liveSet_le

theorem frees_releaseAll : ∀ (cs : List Slot) (s : Surface), Frees s cs (cs.foldl release s)
  | [], s => .nil s
  | c :: cs, s => (frees_release s c).cons (frees_releaseAll cs (s.release c))

end Surface
end BoundPage
