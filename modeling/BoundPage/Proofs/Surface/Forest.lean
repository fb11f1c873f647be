import BoundPage.Proofs.Surface.Levels
/-!
# Forests

A forest is a rooted surface without removed nodes among its roots.  Every change of a page keeps it a forest with two
exceptions, which break it: a node is moved below itself (`forest_append_iff`), and a removed node is copied
(`not_forest_sprout`).
-/
namespace BoundPage
namespace Surface

/-- **Every live node is reached from a live root, in one way.** -/
structure Forest (s : Surface) : Prop extends Rooted s where
  root_live : ∀ {k}, k ∈ s.roots → (s.node k).live

variable {s t : Surface}

theorem SameTree.forest (h : SameTree s t) (hs : s.Forest) : t.Forest where
  toRooted := hs.toRooted.sameTree h
  root_live hk := by rw [h.roots] at hk; rw [h.live]; exact hs.root_live hk

theorem forest_empty : (∅ : Surface).Forest := by
  have hn : ∀ k, (∅ : Surface).node k = default := fun k => node_of_size_le ∅ (Nat.zero_le k)
  have hno : ∀ {p c}, ¬ (∅ : Surface).Child p c := fun {p c} h => by unfold Child at h; rw [hn] at h; cases h
  exact {
    free_dead := fun _ h => by cases h
    nodup_free := List.nodup_nil
    child := fun h => absurd h hno
    parent := fun {c p} h => by rw [hn] at h; cases h
    nodup_children := fun p => by rw [hn]; exact List.nodup_nil
    root := fun {k} h => by rw [hn] at h; cases h
    top := fun h => by cases h
    nodup_roots := List.nodup_nil
    level := fun {k} h => by rw [hn] at h; cases h
    root_live := fun h => by cases h }

/-! ## Nodes go -/

/-- The roots that are left after a release are as live as they were. -/
theorem Loosened.root_live {loose : List Slot} (hs : s.Loosened loose) (h : Frees s loose t) {k : Slot}
    (hk : k ∈ s.roots) (hl : (s.node k).live) : (t.node k).live := by
  by_contra hd
  obtain ⟨c, hc, hb⟩ := h.reached hl (by simpa using hd)
  obtain ⟨hp, -, -, hnot⟩ := hs.top hk
  cases hb with
  | refl => exact hnot hc
  | tail _ hab =>
    rw [(hs.child hab).2.2.1] at hp
    cases hp

theorem frees_remove (s : Surface) (h : Slot) : Frees (s.detach h) [h] (s.remove h) := frees_release _ h

theorem live_of_live_remove {h k : Slot} (hk : ((s.remove h).node k).live) : (s.node k).live := by
  have := (frees_remove s h).live_of_live hk
  rwa [node_detach] at this

theorem remove_self_dead (s : Surface) (h : Slot) : ((s.remove h).node h).live = false :=
  (frees_remove s h).gone h List.mem_cons_self

/-- A detached node has the same nodes below it, whatever it was a child of. -/
theorem below_detach {h k : Slot} : (s.detach h).Below h k ↔ s.Below h k := by
  have hchild : ∀ {a b}, b ≠ h → ((s.detach h).Child a b ↔ s.Child a b) := fun {a b} hb => by
    unfold Child
    rw [node_detach]
    by_cases hp : (s.node h).parent = some a
    · simp [hp, hb]
    · simp [hp]
  constructor
  · intro hb
    induction hb with
    | refl => exact .refl h
    | @tail a b _ hab ih =>
      by_cases hbh : b = h
      · rw [hbh]; exact .refl h
      · exact ih.tail ((hchild hbh).1 hab)
  · intro hb
    induction hb with
    | refl => exact .refl h
    | @tail a b _ hab ih =>
      by_cases hbh : b = h
      · rw [hbh]; exact .refl h
      · exact ih.tail ((hchild hbh).2 hab)

/-- **What is left after a removal** is what was not below the removed node. -/
theorem live_remove_iff (hs : s.Linked) {h : Slot} (hl : (s.node h).live) (k : Slot) :
    ((s.remove h).node k).live ↔ (s.node k).live ∧ ¬ s.Below h k := by
  rw [(frees_remove s h).live_iff (fun hab => ((hs.loosened_detach hl).child hab).1) k]
  simp only [List.mem_singleton, forall_eq, below_detach]
  rw [node_detach]

theorem own_remove {h k : Slot} (hk : ((s.remove h).node k).live) :
    ((s.remove h).node k).own = (s.node k).own := by
  rw [(frees_remove s h).node_of_live hk, node_detach]
  rfl

theorem parent_remove {h k : Slot} (hk : ((s.remove h).node k).live) :
    ((s.remove h).node k).parent = (s.node k).parent := by
  have hne : k ≠ h := fun he => by rw [he, remove_self_dead] at hk; cases hk
  rw [(frees_remove s h).node_of_live hk, node_detach, if_neg hne]

/-- A node that is left has lost a child at most. -/
theorem node_remove {h k : Slot} (hk : ((s.remove h).node k).live) : (s.remove h).node k =
    { s.node k with
      children :=
        if (s.node h).parent = some k then (s.node k).children.filter (· != h) else (s.node k).children } := by
  have hne : k ≠ h := fun he => by rw [he, remove_self_dead] at hk; cases hk
  rw [(frees_remove s h).node_of_live hk, node_detach, if_neg hne]

theorem child_remove (hs : s.Linked) {h a b : Slot} (hl : (s.node h).live) (hab : (s.remove h).Child a b) :
    s.Child a b := by
  have ha := ((hs.remove hl).child hab).1
  unfold Child at hab ⊢
  rw [node_remove ha] at hab
  by_cases hp : (s.node h).parent = some a
  · simp only [hp, if_true, List.mem_filter] at hab
    exact hab.1
  · simpa [hp] using hab

theorem Rooted.remove (hs : s.Rooted) {h : Slot} (hl : (s.node h).live) : (s.remove h).Rooted :=
  hs.of_parents (hs.toLinked.remove hl) (fun _ => live_of_live_remove) fun _ => parent_remove

theorem Forest.remove (hs : s.Forest) {h : Slot} (hl : (s.node h).live) : (s.remove h).Forest where
  toRooted := hs.toRooted.remove hl
  root_live {k} hk := by
    have hk' : k ∈ (s.detach h).roots := by rwa [← (frees_remove s h).roots]
    refine (hs.loosened_detach hl).root_live (frees_remove s h) hk' ?_
    rw [node_detach]
    rw [roots_detach] at hk'
    split at hk'
    · exact hs.root_live (List.mem_filter.1 hk').1
    · exact hs.root_live hk'

theorem frees_setText (s : Surface) (h : Slot) :
    Frees (s.childless h) (s.node h).children ((s.node h).children.foldl release (s.childless h)) :=
  frees_releaseAll _ _

theorem setText_eq (s : Surface) (h : Slot) (text : String) :
    s.setText h text = ((s.node h).children.foldl release (s.childless h)).modify h fun n => { n with text } := rfl

theorem sameTree_text (s : Surface) (h : Slot) (text : String) : SameTree s (s.modify h fun n => { n with text }) :=
  sameTree_modify s h fun _ => ⟨rfl, rfl, rfl⟩

theorem node_setText {n k : Slot} {text : String} (hk : ((s.setText n text).node k).live) :
    (s.node k).live ∧ (s.setText n text).node k =
      { s.node k with
        children := if k = n then [] else (s.node k).children
        text := if k = n then text else (s.node k).text } := by
  have hf := frees_setText s n
  rw [setText_eq] at hk ⊢
  rw [(sameTree_text _ n text).live] at hk
  have hnode := hf.node_of_live hk
  rw [node_childless] at hnode
  have hsk := hf.live_of_live hk
  rw [node_childless] at hsk
  refine ⟨hsk, ?_⟩
  rw [node_modify, hnode]
  by_cases hkn : k = n
  · subst hkn
    rw [if_pos ⟨rfl, lt_size_of_live _ hk⟩]
    simp
  · rw [if_neg fun h => hkn h.1]
    simp [hkn]

theorem child_setText (hs : s.Linked) {n a b : Slot} {text : String} (hab : (s.setText n text).Child a b) :
    s.Child a b := by
  have hl := ((hs.setText n text).child hab).1
  unfold Child at hab ⊢
  rw [(node_setText hl).2] at hab
  by_cases ha : a = n
  · simp [ha] at hab
  · simpa [ha] using hab

/-- What is not strictly below the node is left. -/
theorem live_setText {n k : Slot} (hk : (s.node k).live) (hnot : ∀ c, s.Child n c → ¬ s.Below c k) (text : String) :
    ((s.setText n text).node k).live := by
  have hf := frees_setText s n
  have hmono : ∀ {a b}, (s.childless n).Child a b → s.Child a b := fun {a b} hab => by
    unfold Child at hab ⊢
    rw [node_childless] at hab
    by_cases ha : a = n
    · simp [ha] at hab
    · simpa [ha] using hab
  rw [setText_eq, (sameTree_text _ n text).live]
  by_contra hd
  obtain ⟨c, hc, hb⟩ := hf.reached (k := k) (by rw [node_childless]; exact hk) (by simpa using hd)
  exact hnot c hc (hb.mono fun _ _ => hmono)

theorem Rooted.setText (hs : s.Rooted) (h : Slot) (text : String) : (s.setText h text).Rooted := by
  have hf := frees_setText s h
  rw [setText_eq]
  refine (hs.of_parents (Linked.of_frees (hs.loosened_childless h) hf) (fun k hk => ?_) fun k hk => ?_).sameTree
    (sameTree_text _ h text)
  · have := hf.live_of_live hk
    rwa [node_childless] at this
  · rw [hf.node_of_live hk, node_childless]

theorem Forest.setText (hs : s.Forest) (h : Slot) (text : String) : (s.setText h text).Forest where
  toRooted := hs.toRooted.setText h text
  root_live {k} hk := by
    have hf := frees_setText s h
    rw [setText_eq, roots_modify, hf.roots] at hk
    rw [setText_eq, (sameTree_text _ h text).live]
    refine (hs.loosened_childless h).root_live hf hk ?_
    rw [node_childless]
    exact hs.root_live hk

/-! ## Nodes come -/

section

variable {parent : Option Slot} {source h : Slot}

theorem Sprouts.level (hs : s.Linked) (h : Sprouts parent h s t) {n : Nat} {k : Slot} (hk : s.Level n k) :
    t.Level n k := by
  induction n generalizing k with
  | zero => exact ⟨h.live hk.1, by rw [h.parent_eq hk.1]; exact hk.2⟩
  | succ n ih =>
    obtain ⟨p, hp, hn⟩ := hk
    exact ⟨p, by rw [h.parent_eq (hs.parent hp).1]; exact hp, ih hn⟩

theorem Copies.live_top (h' : Copies s source parent h t) (hl : (s.node source).live) : (t.node h).live :=
  (Node.live_eq h'.own_top).trans hl

theorem Copies.rooted (hs : s.Rooted) (hl : (s.node source).live) (hp : ∀ p, parent = some p → (s.node p).live)
    (h' : Copies s source parent h t) : t.Rooted where
  toLinked := h'.linked
  level {k} hk := by
    by_cases hold : (s.node k).live
    · obtain ⟨n, hn⟩ := hs.level hold
      exact ⟨n, h'.level hs.toLinked hn⟩
    · have htop : ∃ n, t.Level n h := by
        cases hq : parent with
        | none => exact ⟨0, h'.live_top hl, by rw [h'.top, hq]⟩
        | some p =>
          obtain ⟨n, hn⟩ := hs.level (hp p hq)
          exact ⟨n + 1, p, by rw [h'.top, hq], h'.level hs.toLinked hn⟩
      obtain ⟨n, hn⟩ := htop
      obtain ⟨d, hd, -⟩ := hn.below h'.linked (h'.below_of_new hk (by simpa using hold))
      exact ⟨n + d, hd⟩

/-- A copy is described like the node that it was made from. -/
theorem Copies.markupOf_eq (hs : s.Rooted) (hl : (s.node source).live) (h' : Copies s source parent h t)
    (hf : Faithful s source s.size h t) : t.markupOf h = s.markupOf source := by
  have hmarkup := hf.markup s.size (Nat.le_refl _)
  have hpos := Rooted.size_pos hl
  have hsize : s.size - 1 + 1 = s.size := by omega
  -- Both reach the bottom at the depth of the old surface.
  have hdeep : t.Shallow (s.size - 1) h := Shallow.of_markup_eq (by rw [hsize]; exact hmarkup) (hs.shallow hl)
  exact (hdeep.markupWithin_eq t.size s.size (Nat.lt_of_lt_of_le hpos h'.size_le) hpos).trans hmarkup

theorem Copies.forest (hs : s.Forest) (hl : (s.node source).live) (hp : ∀ p, parent = some p → (s.node p).live)
    (h' : Copies s source parent h t) : t.Forest where
  toRooted := h'.rooted hs.toRooted hl hp
  root_live {k} hk := by
    rw [h'.roots] at hk
    split at hk
    · rcases List.mem_append.1 hk with hk | hk
      · exact h'.live (hs.root_live hk)
      · rw [List.mem_singleton.1 hk]; exact h'.live_top hl
    · exact h'.live (hs.root_live hk)

end

theorem Forest.sprout (hs : s.Forest) {n : Node} {parent : Option Slot} (hp : ∀ p, parent = some p → (s.node p).live)
    (hn : n.children = []) (hl : n.live) : (s.sprout n parent).2.Forest := by
  have hsp := sprouts_sprout (n := n) hs.toFreeSlots hp
  have hlink := hs.toLinked.sprout hp hn (.inr hl)
  have hlive := live_sprout (n := n) hs.toFreeSlots hp
  generalize (s.sprout n parent).1 = h at hsp hlive
  generalize (s.sprout n parent).2 = t at hsp hlink hlive ⊢
  have htop : (t.node h).live := by rw [hlive, if_pos rfl]; exact hl
  exact {
    toLinked := hlink
    level := fun {k} hk => by
      by_cases hkh : k = h
      · subst hkh
        cases hq : parent with
        | none => exact ⟨0, htop, by rw [hsp.top, hq]⟩
        | some p =>
          obtain ⟨n, hn⟩ := hs.level (hp p hq)
          exact ⟨n + 1, p, by rw [hsp.top, hq], hsp.level hs.toLinked hn⟩
      · rw [hlive, if_neg hkh] at hk
        obtain ⟨n, hn⟩ := hs.level (k := k) hk
        exact ⟨n, hsp.level hs.toLinked hn⟩
    root_live := fun {k} hk => by
      rw [hsp.roots] at hk
      split at hk
      · rcases List.mem_append.1 hk with hk | hk
        · exact hsp.live (hs.root_live hk)
        · rw [List.mem_singleton.1 hk]; exact htop
      · exact hsp.live (hs.root_live hk) }

/-- A removed node that is added as a root leaves the rest of the surface as it is. -/
theorem live_sprout_of_dead (hs : s.FreeSlots) {n : Node} (hn : n.live = false) (k : Slot) :
    ((s.sprout n none).2.node k).live = (s.node k).live := by
  rw [live_sprout hs (fun _ h => by cases h)]
  split
  · next hk => exact hn.trans (hk ▸ place_fst_dead hs n).symm
  · rfl

/-! ## Nodes move -/

section

variable {p c : Slot}

theorem own_append (hp : (s.node p).live) (hc : (s.node c).live) (k : Slot) :
    ((s.append p c).node k).own = (s.node k).own := by
  rw [Linked.node_append hp hc]
  rfl

theorem live_append (hp : (s.node p).live) (hc : (s.node c).live) (k : Slot) :
    ((s.append p c).node k).live = (s.node k).live := Node.live_eq (own_append hp hc k)

theorem parent_append (hp : (s.node p).live) (hc : (s.node c).live) (k : Slot) :
    ((s.append p c).node k).parent = if k = c then some p else (s.node k).parent := by
  rw [Linked.node_append hp hc]

theorem Rooted.append (hs : s.Rooted) (hp : (s.node p).live) (hc : (s.node c).live) (hnot : ¬ s.Below c p) :
    (s.append p c).Rooted where
  toLinked := hs.toLinked.append hp hc
  level {k} hk := by
    rw [live_append hp hc] at hk
    have hpar := parent_append hp hc
    have hlive := live_append hp hc
    -- The new parent keeps its level: what moves is not above it.
    have htop : ∃ n, (s.append p c).Level n p := by
      obtain ⟨n, hn⟩ := hs.level hp
      refine ⟨n, hn.of_parents (fun k hk => by rwa [hlive]) hs.toLinked fun j hj => ?_⟩
      exact (hpar j).trans (if_neg fun he => hnot (by rwa [he] at hj))
    obtain ⟨n, hn⟩ := hs.level hk
    induction n generalizing k with
    | zero =>
      by_cases hkc : k = c
      · obtain ⟨m, hm⟩ := htop
        exact ⟨m + 1, p, by rw [hpar, if_pos hkc], hm⟩
      · exact ⟨0, by rw [hlive]; exact hk, by rw [hpar, if_neg hkc]; exact hn.2⟩
    | succ n ih =>
      by_cases hkc : k = c
      · obtain ⟨m, hm⟩ := htop
        exact ⟨m + 1, p, by rw [hpar, if_pos hkc], hm⟩
      · obtain ⟨q, hq, hn⟩ := hn
        obtain ⟨m, hm⟩ := ih (hs.parent_live hq) hn
        exact ⟨m + 1, q, by rw [hpar, if_neg hkc]; exact hq, hm⟩

theorem not_rooted_append (hs : s.Rooted) (hp : (s.node p).live) (hc : (s.node c).live) (hb : s.Below c p) :
    ¬ (s.append p c).Rooted := by
  intro ht
  have hchild := fun {a b} => hs.toLinked.child_append hp hc (a := a) (b := b)
  have hkeep : ∀ {j}, s.Below c j → (s.append p c).Below c j := fun {j} hj => by
    clear hb
    induction hj with
    | refl => exact .refl c
    | @tail a b hca hab ih =>
      refine Relation.ReflTransGen.tail ih (hchild.2 (.inl ⟨?_, hab⟩))
      rintro rfl
      obtain ⟨n, hn⟩ := hs.level (hs.child hab).1
      exact hn.not_below_of_child hs.toLinked hab hca
  obtain ⟨n, hn⟩ := ht.level (k := p) (by rw [live_append hp hc]; exact hp)
  exact hn.not_below_of_child ht.toLinked (hchild.2 (.inr ⟨rfl, rfl⟩)) (hkeep hb)

/-- **A move leaves a forest exactly if the node does not go below itself.** -/
theorem forest_append_iff (hs : s.Forest) (hp : (s.node p).live) (hc : (s.node c).live) :
    (s.append p c).Forest ↔ ¬ s.Below c p := by
  constructor
  · exact fun h hb => not_rooted_append hs.toRooted hp hc hb h.toRooted
  · intro hnot
    refine ⟨hs.toRooted.append hp hc hnot, fun {k} hk => ?_⟩
    rw [Linked.roots_append] at hk
    rw [live_append hp hc]
    split at hk
    · exact hs.root_live (List.mem_filter.1 hk).1
    · exact hs.root_live hk

end

end Surface
end BoundPage
