import BoundPage.Proofs.Surface.Links
/-!
# Growth

Mounting and copying add one node after the other: a node takes a slot and is attached (`sprout`).  What was there
stays as it is, except that the node it is attached to gets one more child at the end (`Sprouts`).
-/
namespace BoundPage
namespace Surface

/-- A node takes a slot and is attached to a parent, or becomes a root. -/
def sprout (s : Surface) (n : Node) (parent : Option Slot) : Slot × Surface :=
  ((s.place n).1, (s.place n).2.attach parent (s.place n).1)

/-- **A node has been added, with or without nodes below it**: what was there is unchanged but for one more child of
its parent. -/
structure Sprouts (parent : Option Slot) (h : Slot) (s t : Surface) : Prop where
  size_le : s.size ≤ t.size
  fresh : (s.node h).live = false
  node : ∀ k, (s.node k).live → t.node k =
    { s.node k with children := if parent = some k then (s.node k).children ++ [h] else (s.node k).children }
  roots : t.roots = if parent = none then s.roots ++ [h] else s.roots
  free : t.free <:+ s.free
  top : (t.node h).parent = parent

namespace Sprouts

variable {s t : Surface} {parent : Option Slot} {h : Slot}

theorem live (hs : Sprouts parent h s t) {k : Slot} (hk : (s.node k).live) : (t.node k).live := by
  rw [hs.node k hk]; exact hk

theorem own (hs : Sprouts parent h s t) {k : Slot} (hk : (s.node k).live) : (t.node k).own = (s.node k).own := by
  rw [hs.node k hk]; rfl

theorem parent_eq (hs : Sprouts parent h s t) {k : Slot} (hk : (s.node k).live) :
    (t.node k).parent = (s.node k).parent := by rw [hs.node k hk]

theorem node_eq (hs : Sprouts parent h s t) {k : Slot} (hk : (s.node k).live) (hp : parent ≠ some k) :
    t.node k = s.node k := by
  rw [hs.node k hk, if_neg hp]

/-- What is above a node that was there before was there, too. -/
theorem below_old (hl : s.Linked) (ht : t.Linked) (hs : Sprouts parent h s t) {a b : Slot} (hab : t.Below a b)
    (hb : (s.node b).live) : (s.node a).live ∧ s.Below a b := by
  induction hab with
  | refl => exact ⟨hb, .refl a⟩
  | @tail c b _ hcb ih =>
    have hp := (ht.child hcb).2.2
    rw [hs.parent_eq hb] at hp
    obtain ⟨ha, hac⟩ := ih (hl.parent_live hp)
    exact ⟨ha, hac.tail (hl.parent hp).2⟩

end Sprouts

theorem below_congr {s t : Surface} {a : Slot} (h : ∀ k, s.Below a k → (t.node k).children = (s.node k).children)
    {b : Slot} : t.Below a b ↔ s.Below a b := by
  constructor
  · intro hb
    induction hb with
    | refl => exact .refl a
    | tail _ hc ih => exact ih.tail (by unfold Child at hc ⊢; rwa [h _ ih] at hc)
  · intro hb
    induction hb with
    | refl => exact .refl a
    | tail hab hc ih => exact ih.tail (by unfold Child at hc ⊢; rwa [h _ hab])

/-! ## One node -/

section Sprout

variable {s : Surface} {n : Node} {parent : Option Slot}

theorem node_sprout (hs : s.FreeSlots) (hp : ∀ p, parent = some p → (s.node p).live) (k : Slot) :
    (s.sprout n parent).2.node k =
      if k = (s.sprout n parent).1 then { n with parent }
      else { s.node k with children := if parent = some k then (s.node k).children ++ [(s.sprout n parent).1]
               else (s.node k).children } := by
  unfold sprout
  simp only
  rw [node_attach (place_fst_lt hs n) (fun p h => Nat.lt_of_lt_of_le (lt_size_of_live s (hp p h))
    (size_le_size_place n)), node_place hs]
  by_cases hk : k = (s.place n).1
  · have hpk : parent ≠ some k := fun h => place_fst_ne hs n (hp k h) hk
    simp [hk, hk ▸ hpk]
  · simp [hk]

theorem free_sprout (s : Surface) (n : Node) (parent : Option Slot) :
    (s.sprout n parent).2.free = s.free.tail := by
  show ((s.place n).2.attach parent (s.place n).1).free = _
  rw [free_attach, free_place]

theorem sprouts_sprout (hs : s.FreeSlots) (hp : ∀ p, parent = some p → (s.node p).live) :
    Sprouts parent (s.sprout n parent).1 s (s.sprout n parent).2 where
  size_le := by
    show s.size ≤ ((s.place n).2.attach parent (s.place n).1).size
    rw [size_attach]; exact size_le_size_place n
  fresh := place_fst_dead hs n
  node k hk := by
    have hne : k ≠ (s.sprout n parent).1 := place_fst_ne hs n hk
    rw [node_sprout hs hp, if_neg hne]
  roots := by
    show ((s.place n).2.attach parent (s.place n).1).roots = _
    rw [roots_attach, roots_place]; rfl
  free := by rw [free_sprout]; exact List.tail_suffix _
  top := by rw [node_sprout hs hp, if_pos rfl]

/-- The slot that a node is placed in was no root. -/
theorem Linked.place_not_mem_roots (hs : s.Linked) (n : Node) : (s.place n).1 ∉ s.roots := fun hc => by
  obtain ⟨-, hnot, hlt⟩ := hs.top hc
  unfold place at hnot hlt
  cases hf : s.free with
  | nil =>
    rw [hf] at hlt
    exact Nat.lt_irrefl _ hlt
  | cons h free =>
    rw [hf] at hnot
    exact hnot List.mem_cons_self

theorem Linked.child_sprout (hs : s.Linked) (hp : ∀ p, parent = some p → (s.node p).live) (hn : n.children = [])
    {a b : Slot} : (s.sprout n parent).2.Child a b ↔ s.Child a b ∨ parent = some a ∧ b = (s.sprout n parent).1 := by
  have hdead : (s.node (s.sprout n parent).1).live = false := place_fst_dead hs.toFreeSlots n
  unfold Child
  rw [node_sprout hs.toFreeSlots hp]
  by_cases ha : a = (s.sprout n parent).1
  · have hparent : parent ≠ some (s.sprout n parent).1 := fun hc => by
      rw [hp _ hc] at hdead
      cases hdead
    rw [if_pos ha, ha]
    simp [hn, hs.dead_children hdead, hparent]
  · rw [if_neg ha]
    by_cases hpa : parent = some a <;> simp [hpa]

theorem live_sprout (hs : s.FreeSlots) (hp : ∀ p, parent = some p → (s.node p).live) (k : Slot) :
    ((s.sprout n parent).2.node k).live = if k = (s.sprout n parent).1 then n.live else (s.node k).live := by
  rw [node_sprout hs hp]
  split <;> rfl

theorem live_sprout_self (hs : s.FreeSlots) (hp : ∀ p, parent = some p → (s.node p).live) :
    ((s.sprout n parent).2.node (s.sprout n parent).1).live = n.live := by
  rw [live_sprout hs hp, if_pos rfl]

theorem parent_sprout (hs : s.FreeSlots) (hp : ∀ p, parent = some p → (s.node p).live) (k : Slot) :
    ((s.sprout n parent).2.node k).parent = if k = (s.sprout n parent).1 then parent else (s.node k).parent := by
  rw [node_sprout hs hp]
  split <;> rfl

theorem FreeSlots.sprout (hs : s.FreeSlots) (n : Node) (parent : Option Slot) : (s.sprout n parent).2.FreeSlots :=
  (hs.place n).attach parent _

/-- The new slot is taken out of the free ones. -/
theorem freeSlots_sprout (hs : s.FreeSlots) (n : Node) (parent : Option Slot) : (s.sprout n parent).2.FreeSlots ∧
    (s.sprout n parent).1 ∉ (s.sprout n parent).2.free ∧ (s.sprout n parent).1 < (s.sprout n parent).2.size := by
  have hfree := free_sprout s n parent
  have hsize : (s.sprout n parent).2.size = (s.place n).2.size := size_attach ..
  have hnew : (s.sprout n parent).1 ∉ s.free.tail := place_fst_not_mem_free hs n
  exact ⟨hs.sprout n parent, hfree ▸ hnew, hsize ▸ place_fst_lt hs n⟩

theorem Linked.nodup_children_sprout (hs : s.Linked) (hp : ∀ p, parent = some p → (s.node p).live)
    (hn : n.children = []) (k : Slot) : ((s.sprout n parent).2.node k).children.Nodup := by
  rw [node_sprout hs.toFreeSlots hp]
  split
  · exact hn ▸ List.nodup_nil
  · dsimp only
    split
    · rw [← List.concat_eq_append]
      refine .concat (fun hmem => ?_) (hs.nodup_children k)
      exact place_fst_ne hs.toFreeSlots n (hs.child (p := k) hmem).2.1 rfl
    · exact hs.nodup_children k

/-- **Parents and children agree after a childless node has been added**, if it is live or has no parent. -/
theorem Linked.child_iff_sprout (hs : s.Linked) (hp : ∀ p, parent = some p → (s.node p).live) (hn : n.children = [])
    (hl : parent = none ∨ n.live) :
    (∀ {a b}, (s.sprout n parent).2.Child a b → ((s.sprout n parent).2.node a).live ∧
      ((s.sprout n parent).2.node b).live ∧ ((s.sprout n parent).2.node b).parent = some a) ∧
    ∀ {b a}, ((s.sprout n parent).2.node b).parent = some a →
      ((s.sprout n parent).2.node b).live ∧ (s.sprout n parent).2.Child a b := by
  simp only [live_sprout hs.toFreeSlots hp, parent_sprout hs.toFreeSlots hp, hs.child_sprout hp hn]
  have hne : ∀ {k}, (s.node k).live → k ≠ (s.sprout n parent).1 := fun hk => place_fst_ne hs.toFreeSlots n hk
  generalize (s.sprout n parent).1 = h at hne
  constructor
  · rintro a b (hab | ⟨hpa, rfl⟩)
    · obtain ⟨ha, hb, hba⟩ := hs.child hab
      rw [if_neg (hne ha), if_neg (hne hb), if_neg (hne hb)]
      exact ⟨ha, hb, hba⟩
    · rw [if_neg (hne (hp a hpa)), if_pos rfl, if_pos rfl]
      exact ⟨hp a hpa, hl.resolve_left (by rw [hpa]; simp), hpa⟩
  · intro b a hba
    by_cases hb : b = h
    · rw [if_pos hb] at hba ⊢
      exact ⟨hl.resolve_left (by rw [hba]; simp), .inr ⟨hba, hb⟩⟩
    · rw [if_neg hb] at hba ⊢
      exact ⟨(hs.parent hba).1, .inl (hs.parent hba).2⟩

/-- **Adding a childless node keeps the links**; a node that is not live can only be added as a root. -/
theorem Linked.sprout (hs : s.Linked) (hp : ∀ p, parent = some p → (s.node p).live) (hn : n.children = [])
    (hl : parent = none ∨ n.live) : (s.sprout n parent).2.Linked := by
  have hsp := sprouts_sprout (n := n) hs.toFreeSlots hp
  have hpar := parent_sprout (n := n) hs.toFreeSlots hp
  have hlive := live_sprout (n := n) hs.toFreeSlots hp
  obtain ⟨hfree, hnot, hlt⟩ := freeSlots_sprout hs.toFreeSlots n parent
  have hroot : (s.sprout n parent).1 ∉ s.roots := hs.place_not_mem_roots n
  refine { hfree with
    child := (hs.child_iff_sprout hp hn hl).1
    parent := (hs.child_iff_sprout hp hn hl).2
    nodup_children := hs.nodup_children_sprout hp hn
    root := fun {k} hkl hkp => ?_
    top := fun {k} hk => ?_
    nodup_roots := ?_ }
  · rw [hsp.roots]
    rw [hlive] at hkl
    rw [hpar] at hkp
    by_cases hk : k = (s.sprout n parent).1
    · rw [if_pos hk] at hkp
      rw [if_pos hkp, hk]
      exact List.mem_concat_self
    · rw [if_neg hk] at hkl hkp
      split
      · exact List.mem_append_left _ (hs.root hkl hkp)
      · exact hs.root hkl hkp
  · rw [hsp.roots] at hk
    have hold : k ∈ s.roots → ((s.sprout n parent).2.node k).parent = none ∧ k ∉ (s.sprout n parent).2.free ∧
        k < (s.sprout n parent).2.size := fun hk => by
      obtain ⟨hnone, hused, hin⟩ := hs.top hk
      have hne : k ≠ (s.sprout n parent).1 := fun he => hroot (he ▸ hk)
      rw [hpar, if_neg hne]
      exact ⟨hnone, fun hc => hused (hsp.free.subset hc), Nat.lt_of_lt_of_le hin hsp.size_le⟩
    split at hk
    · next hnone =>
      rcases List.mem_append.1 hk with hk | hk
      · exact hold hk
      · obtain rfl := List.mem_singleton.1 hk
        exact ⟨hsp.top.trans hnone, hnot, hlt⟩
    · exact hold hk
  · rw [hsp.roots]
    split
    · rw [← List.concat_eq_append]
      exact .concat hroot hs.nodup_roots
    · exact hs.nodup_roots

end Sprout

end Surface
end BoundPage
