import BoundPage.Proofs.Surface.Walks
/-!
# Copies

A copy is linked, all of it is new, and all that is new belongs to it (`copies_copyWithin`).  When the place of the
copy is not inside the node that is copied, the copy reads like the original, and each node in it comes from one below
the original (`faithful_copyWithin`).
-/
namespace BoundPage
namespace Surface

/-- **A node has been copied to a parent.** -/
structure Copies (s : Surface) (source : Slot) (parent : Option Slot) (h : Slot) (t : Surface) : Prop
    extends Sprouts parent h s t where
  linked : t.Linked
  own_top : (t.node h).own = (s.node source).own
  new_of_below : ∀ {k}, t.Below h k → (s.node k).live = false
  below_of_new : ∀ {k}, (t.node k).live → (s.node k).live = false → t.Below h k
  own_old : ∀ {k}, (t.node k).live → ∃ j, (s.node j).live ∧ (t.node k).own = (s.node j).own

/-- **Copies have been added below a node**, one after the other. -/
structure Grafts (h : Slot) (s t : Surface) : Prop where
  linked : t.Linked
  node : ∀ {k}, (s.node k).live → k ≠ h → t.node k = s.node k
  top : ∃ new, t.node h = { s.node h with children := (s.node h).children ++ new } ∧
    ∀ c ∈ new, ∀ {k}, t.Below c k → (s.node k).live = false
  size_le : s.size ≤ t.size
  roots : t.roots = s.roots
  free : t.free <:+ s.free
  below_of_new : ∀ {k}, (t.node k).live → (s.node k).live = false → t.Below h k
  own_old : ∀ {k}, (t.node k).live → ∃ j, (s.node j).live ∧ (t.node k).own = (s.node j).own

namespace Grafts

variable {s t u : Surface} {h : Slot}

theorem refl (hs : s.Linked) (h : Slot) : Grafts h s s where
  linked := hs
  node _ _ := rfl
  top := ⟨[], by simp, fun _ hc => by cases hc⟩
  size_le := Nat.le_refl _
  roots := rfl
  free := List.suffix_refl _
  below_of_new hl hd := by rw [hd] at hl; cases hl
  own_old {k} hk := ⟨k, hk, rfl⟩

theorem live (hg : Grafts h s t) {k : Slot} (hk : (s.node k).live) : (t.node k).live := by
  by_cases hkh : k = h
  · obtain ⟨new, he, -⟩ := hg.top
    rw [hkh, he]; exact hkh ▸ hk
  · rw [hg.node hk hkh]; exact hk

theorem child (hs : s.Linked) (hg : Grafts h s t) {a b : Slot} (hab : s.Child a b) : t.Child a b := by
  by_cases ha : a = h
  · obtain ⟨new, he, -⟩ := hg.top
    unfold Child at hab ⊢
    rw [ha, he]
    exact List.mem_append_left _ (ha ▸ hab)
  · unfold Child
    rw [hg.node (hs.child hab).1 ha]
    exact hab

theorem trans (hh : (s.node h).live) (hg : Grafts h s t) (hr : Grafts h t u) : Grafts h s u where
  linked := hr.linked
  node {k} hk hkh := by rw [hr.node (hg.live hk) hkh, hg.node hk hkh]
  top := by
    obtain ⟨n1, e1, b1⟩ := hg.top
    obtain ⟨n2, e2, b2⟩ := hr.top
    refine ⟨n1 ++ n2, by rw [e2, e1]; simp, fun d hd k hb => ?_⟩
    rcases List.mem_append.1 hd with hd | hd
    · refine b1 d hd ((below_congr fun j hj => ?_).1 hb)
      have hdc : t.Child h d := by unfold Child; rw [e1]; exact List.mem_append_right _ hd
      rw [hr.node (hg.linked.live_of_below hj (hg.linked.child hdc).2.1) fun he => ?_]
      have := b1 d hd hj
      rw [he, hh] at this
      cases this
    · by_contra hk
      have := b2 d hd hb
      rw [hg.live (by simpa using hk)] at this
      cases this
  size_le := Nat.le_trans hg.size_le hr.size_le
  roots := hr.roots.trans hg.roots
  free := hr.free.trans hg.free
  below_of_new {k} hk hd := by
    by_cases hk' : (t.node k).live
    · exact (hg.below_of_new hk' hd).mono fun _ _ => hr.child hg.linked
    · exact hr.below_of_new hk (by simpa using hk')
  own_old {k} hk := by
    obtain ⟨j, hj, he⟩ := hr.own_old hk
    obtain ⟨i, hi, he'⟩ := hg.own_old hj
    exact ⟨i, hi, he.trans he'⟩

end Grafts

theorem Copies.grafts {s t : Surface} {source h c : Slot} (hh : (s.node h).live)
    (hc : Copies s source (some h) c t) : Grafts h s t where
  linked := hc.linked
  node {k} hk hkh := hc.node_eq hk (by simpa using Ne.symm hkh)
  top := ⟨[c], by rw [hc.node h hh, if_pos rfl], fun d hd k hb => by
    rw [List.mem_singleton.1 hd] at hb
    exact hc.new_of_below hb⟩
  size_le := hc.size_le
  roots := by rw [hc.roots, if_neg (by simp)]
  free := hc.free
  below_of_new {k} hl hd := by
    have hcl : t.Child h c := by
      unfold Child
      rw [hc.node h hh]
      simp
    exact Relation.ReflTransGen.head hcl (hc.below_of_new hl hd)
  own_old := hc.own_old

theorem Copies.same_below {s t u : Surface} {source h c d : Slot} (hs : s.Linked) (hc : Copies t source (some h) c u)
    (hd : (s.node d).live) (hsame : ∀ j, s.Below d j → t.node j = s.node j ∧ j ≠ h) (j : Slot) (hj : s.Below d j) :
    u.node j = s.node j ∧ j ≠ h := by
  obtain ⟨he, hne⟩ := hsame j hj
  have hjl : (t.node j).live := by rw [he]; exact hs.live_of_below hj hd
  exact ⟨by rw [hc.node_eq hjl (by simpa using Ne.symm hne), he], hne⟩

/-! ## Copying -/

/-- A node without its children and its parent. -/
def bare (s : Surface) (h : Slot) : Node := { s.node h with children := [], parent := none }

theorem copyWithin_zero (s : Surface) (source : Slot) (parent : Option Slot) :
    copyWithin 0 s source parent = s.sprout (s.bare source) parent := rfl

theorem copyWithin_succ (depth : Nat) (s : Surface) (source : Slot) (parent : Option Slot) :
    copyWithin (depth + 1) s source parent =
      ((s.sprout (s.bare source) parent).1,
        (s.node source).children.foldl
          (fun t c => (copyWithin depth t c (some (s.sprout (s.bare source) parent).1)).2)
          (s.sprout (s.bare source) parent).2) := rfl

section

variable {s : Surface} {source : Slot} {parent : Option Slot}

theorem copies_sprout (hs : s.Linked) (hl : (s.node source).live) (hp : ∀ p, parent = some p → (s.node p).live) :
    Copies s source parent (s.sprout (s.bare source) parent).1 (s.sprout (s.bare source) parent).2 := by
  have hsp := sprouts_sprout (n := s.bare source) hs.toFreeSlots hp
  have hlink : (s.sprout (s.bare source) parent).2.Linked := hs.sprout hp rfl (.inr hl)
  have hnode := node_sprout (n := s.bare source) hs.toFreeSlots hp
  generalize (s.sprout (s.bare source) parent).1 = h at hsp hnode
  generalize (s.sprout (s.bare source) parent).2 = t at hsp hlink hnode
  have hnew : ∀ {k}, (t.node k).live → (s.node k).live = false → k = h := fun {k} hk hd => by
    by_contra hne
    rw [hnode, if_neg hne] at hk
    have : (s.node k).live := hk
    rw [hd] at this; cases this
  have hown : (t.node h).own = (s.node source).own := by rw [hnode, if_pos rfl]; rfl
  exact { hsp with
    linked := hlink
    own_top := hown
    new_of_below := fun {k} hb => by
      have hk : k = h := by
        cases hb.cases_head with
        | inl he => exact he.symm
        | inr hc =>
          obtain ⟨c, hc, -⟩ := hc
          unfold Child at hc
          rw [hnode, if_pos rfl] at hc
          cases hc
      rw [hk]; exact hsp.fresh
    below_of_new := fun hk hd => by rw [hnew hk hd]; exact .refl h
    own_old := fun {k} hk => by
      by_cases hd : (s.node k).live
      · exact ⟨k, hd, hsp.own hd⟩
      · rw [hnew hk (by simpa using hd)]
        exact ⟨source, hl, hown⟩ }

theorem Copies.of_grafts {h : Slot} {t u : Surface} (hc : Copies s source parent h t)
    (hch : (t.node h).children = []) (hg : Grafts h t u) : Copies s source parent h u where
  size_le := Nat.le_trans hc.size_le hg.size_le
  fresh := hc.fresh
  node k hk := by
    have hkh : k ≠ h := fun he => by rw [he, hc.fresh] at hk; cases hk
    rw [hg.node (hc.live hk) hkh, hc.node k hk]
  roots := by rw [hg.roots, hc.roots]
  free := hg.free.trans hc.free
  top := by
    obtain ⟨new, he, -⟩ := hg.top
    rw [he]; exact hc.top
  linked := hg.linked
  own_top := by
    obtain ⟨new, he, -⟩ := hg.top
    rw [he]; exact hc.own_top
  new_of_below {k} hb := by
    obtain ⟨new, he, hn⟩ := hg.top
    rcases hb.cases_head with rfl | ⟨c, hch', hb⟩
    · exact hc.fresh
    · unfold Child at hch'
      rw [he, hch] at hch'
      by_contra hk
      have := hn c hch' hb
      rw [hc.live (by simpa using hk)] at this
      cases this
  below_of_new {k} hk hd := by
    by_cases ht : (t.node k).live
    · exact (hc.below_of_new ht hd).mono fun _ _ => hg.child hc.linked
    · exact hg.below_of_new hk (by simpa using ht)
  own_old {k} hk := by
    obtain ⟨j, hj, he⟩ := hg.own_old hk
    obtain ⟨i, hi, he'⟩ := hc.own_old hj
    exact ⟨i, hi, he.trans he'⟩

theorem grafts_foldl {depth : Nat} {h : Slot}
    (ih : ∀ (s : Surface) (c : Slot), s.Linked → (s.node c).live → (s.node h).live →
      Copies s c (some h) (copyWithin depth s c (some h)).1 (copyWithin depth s c (some h)).2) :
    ∀ (cs : List Slot) (s t : Surface), s.Linked → (s.node h).live → (∀ c ∈ cs, (s.node c).live) → Grafts h s t →
      Grafts h s (cs.foldl (fun t c => (copyWithin depth t c (some h)).2) t)
  | [], _, _, _, _, _, hg => hg
  | c :: cs, s, t, hs, hh, hcs, hg =>
    grafts_foldl ih cs s _ hs hh (fun d hd => hcs d (List.mem_cons_of_mem _ hd))
      (hg.trans hh ((ih t c hg.linked (hg.live (hcs c List.mem_cons_self)) (hg.live hh)).grafts (hg.live hh)))

/-- **Copying a live node.** -/
theorem copies_copyWithin : ∀ (depth : Nat) (s : Surface) (source : Slot) (parent : Option Slot), s.Linked →
    (s.node source).live → (∀ p, parent = some p → (s.node p).live) →
    Copies s source parent (copyWithin depth s source parent).1 (copyWithin depth s source parent).2 := by
  intro depth
  induction depth with
  | zero => intro s source parent hs hl hp; exact copies_sprout hs hl hp
  | succ depth ih =>
    intro s source parent hs hl hp
    rw [copyWithin_succ]
    have hc := copies_sprout hs hl hp
    have hnode := node_sprout (n := s.bare source) hs.toFreeSlots hp (s.sprout (s.bare source) parent).1
    rw [if_pos rfl] at hnode
    generalize (s.sprout (s.bare source) parent).1 = h at hc hnode ⊢
    generalize (s.sprout (s.bare source) parent).2 = t at hc hnode ⊢
    have hh : (t.node h).live := by rw [hnode]; exact hl
    refine hc.of_grafts (by rw [hnode]; rfl) (grafts_foldl (fun s c hs hc hh => ?_) _ t t hc.linked hh
      (fun c hcs => hc.live (hs.child (p := source) hcs).2.1) (.refl hc.linked h))
    exact ih s c (some h) hs hc fun p hp => by rw [← Option.some.inj hp]; exact hh

theorem copyWithin_of_dead (hs : s.Linked) (hd : (s.node source).live = false) (depth : Nat) :
    copyWithin depth s source parent = s.sprout (s.bare source) parent := by
  cases depth with
  | zero => rfl
  | succ depth => rw [copyWithin_succ, hs.dead_children hd]; rfl

end

/-! ## The copy reads like the original -/

/-- **What is below a copy comes from below the original, and the two read the same.** -/
structure Faithful (s : Surface) (source : Slot) (depth : Nat) (h : Slot) (t : Surface) : Prop where
  origin : ∀ {k}, t.Below h k → k ≠ h → ∃ c j, s.Child source c ∧ s.Below c j ∧ (t.node k).own = (s.node j).own
  markup : ∀ d ≤ depth, t.markupWithin d h = s.markupWithin d source

/-- What the copies of a list of nodes, added below `h`, read like. -/
structure FaithfulAll (s : Surface) (cs : List Slot) (depth : Nat) (h : Slot) (t u : Surface) : Prop
    extends Grafts h t u where
  children : ∃ new, (u.node h).children = (t.node h).children ++ new ∧
    (∀ d ≤ depth, new.map (u.markupWithin d) = cs.map (s.markupWithin d)) ∧
    ∀ c' ∈ new, ∀ {k}, u.Below c' k → ∃ c ∈ cs, ∃ j, s.Below c j ∧ (u.node k).own = (s.node j).own

theorem faithfulAll_foldl {s : Surface} (hs : s.Linked) {depth : Nat} {h : Slot}
    (ih : ∀ (t : Surface) (c : Slot), t.Linked → (t.node c).live → (∀ p, some h = some p → (t.node p).live) →
      (∀ p, some h = some p → ¬ t.Below c p) →
      Faithful t c depth (copyWithin depth t c (some h)).1 (copyWithin depth t c (some h)).2) :
    ∀ (cs : List Slot) (t : Surface), t.Linked → (t.node h).live → (∀ c ∈ cs, (s.node c).live) →
      (∀ c ∈ cs, ∀ j, s.Below c j → t.node j = s.node j ∧ j ≠ h) →
      FaithfulAll s cs depth h t (cs.foldl (fun t c => (copyWithin depth t c (some h)).2) t)
  | [], t, ht, _, _, _ =>
    { Grafts.refl ht h with children := ⟨[], by simp, fun _ _ => rfl, fun _ hc => by cases hc⟩ }
  | c :: cs, t, ht, hh, hlive, hsame => by
    have hcs : ∀ j, s.Below c j → t.node j = s.node j ∧ j ≠ h := hsame c List.mem_cons_self
    have hcl : (t.node c).live := by
      rw [(hcs c (.refl c)).1]; exact hlive c List.mem_cons_self
    have hhp : ∀ p, some h = some p → (t.node p).live := fun p hp => by rw [← Option.some.inj hp]; exact hh
    have hbelow : ∀ {j}, t.Below c j ↔ s.Below c j :=
      below_congr fun j hj => by rw [(hcs j hj).1]
    have hcopy := copies_copyWithin depth t c (some h) ht hcl hhp
    have hfaith := ih t c ht hcl hhp fun p hp hb => by
      rw [← Option.some.inj hp, hbelow] at hb
      exact (hcs h hb).2 rfl
    rw [List.foldl_cons]
    generalize (copyWithin depth t c (some h)).1 = c' at hcopy hfaith
    generalize (copyWithin depth t c (some h)).2 = t' at hcopy hfaith
    have hrest := faithfulAll_foldl hs ih cs t' hcopy.linked (hcopy.live hh)
      (fun d hd => hlive d (List.mem_cons_of_mem _ hd))
      (fun d hd => hcopy.same_below hs (hlive d (List.mem_cons_of_mem _ hd)) (hsame d (List.mem_cons_of_mem _ hd)))
    generalize cs.foldl (fun t c => (copyWithin depth t c (some h)).2) t' = u at hrest
    obtain ⟨new, hch, hmk, hor⟩ := hrest.children
    -- The later copies are added below `h`, which is not below the copy of `c`.
    have hkeep : ∀ k, t'.Below c' k → u.node k = t'.node k := fun k hb => by
      have hc'l : (t'.node c').live := by
        have h1 : (t'.node c').own.live = (t.node c).own.live := by rw [hcopy.own_top]
        exact h1.trans hcl
      refine hrest.node (hcopy.linked.live_of_below hb hc'l) fun he => ?_
      have := hcopy.new_of_below hb
      rw [he, hh] at this
      cases this
    refine { (hcopy.grafts hh).trans hh hrest.toGrafts with children := ?_ }
    refine ⟨c' :: new, ?_, fun d hd => ?_, fun d hd k hb => ?_⟩
    · rw [hch, hcopy.node h hh, if_pos rfl]
      simp
    · rw [List.map_cons, List.map_cons, hmk d hd, markupWithin_congr d c' hkeep, hfaith.markup d hd,
        markupWithin_congr d c fun k hb => (hcs k hb).1]
    · rcases List.mem_cons.1 hd with rfl | hd
      · have hb' := (below_congr fun j hj => by rw [hkeep j hj]).1 hb
        rw [hkeep k hb']
        by_cases hkd : k = d
        · refine ⟨c, List.mem_cons_self, c, .refl c, ?_⟩
          rw [hkd, hcopy.own_top, (hcs c (.refl c)).1]
        · obtain ⟨e, j, he, hj, ho⟩ := hfaith.origin hb' hkd
          have hcj : s.Below c j := hbelow.1 (Relation.ReflTransGen.head he hj)
          exact ⟨c, List.mem_cons_self, j, hcj, by rw [ho, (hcs j hcj).1]⟩
      · obtain ⟨c, hc, j, hj, ho⟩ := hor d hd hb
        exact ⟨c, List.mem_cons_of_mem _ hc, j, hj, ho⟩

/-- A node that is added outside a node leaves alone what is below that node. -/
theorem Sprouts.same_below_child {s t : Surface} {source h c : Slot} {parent : Option Slot} (hs : s.Linked)
    (h' : Sprouts parent h s t) (hnot : ∀ p, parent = some p → ¬ s.Below source p) (hc : s.Child source c) (j : Slot)
    (hj : s.Below c j) : t.node j = s.node j ∧ j ≠ h := by
  have hjl := hs.live_of_below hj (hs.child hc).2.1
  refine ⟨h'.node_eq hjl fun he => hnot j he (Relation.ReflTransGen.head hc hj), ?_⟩
  rintro rfl
  rw [h'.fresh] at hjl
  cases hjl

/-- **A copy reads like the node it was made from**, if its place is not inside that node. -/
theorem faithful_copyWithin : ∀ (depth : Nat) (s : Surface) (source : Slot) (parent : Option Slot), s.Linked →
    (s.node source).live → (∀ p, parent = some p → (s.node p).live) → (∀ p, parent = some p → ¬ s.Below source p) →
    Faithful s source depth (copyWithin depth s source parent).1 (copyWithin depth s source parent).2 := by
  intro depth
  induction depth with
  | zero =>
    intro s source parent hs hl hp _
    rw [copyWithin_zero]
    have hnode := node_sprout (n := s.bare source) hs.toFreeSlots hp (s.sprout (s.bare source) parent).1
    rw [if_pos rfl] at hnode
    refine { origin := fun {k} hb hk => ?_, markup := fun d hd => by rw [Nat.le_zero.1 hd]; rfl }
    rcases hb.cases_head with he | ⟨c, hc, -⟩
    · exact absurd he.symm hk
    · unfold Child at hc
      rw [hnode] at hc
      cases hc
  | succ depth ih =>
    intro s source parent hs hl hp hnot
    rw [copyWithin_succ]
    have hc := copies_sprout hs hl hp
    have hnode := node_sprout (n := s.bare source) hs.toFreeSlots hp (s.sprout (s.bare source) parent).1
    rw [if_pos rfl] at hnode
    generalize (s.sprout (s.bare source) parent).1 = h at hc hnode ⊢
    generalize (s.sprout (s.bare source) parent).2 = t at hc hnode ⊢
    have hh : (t.node h).live := by rw [hnode]; exact hl
    have hall := faithfulAll_foldl hs (fun t c => ih t c (some h)) (s.node source).children t hc.linked hh
      (fun c hcs => (hs.child (p := source) hcs).2.1) fun c hcs => hc.same_below_child hs hnot hcs
    generalize (s.node source).children.foldl (fun t c => (copyWithin depth t c (some h)).2) t = u at hall
    obtain ⟨new, hch, hmk, hor⟩ := hall.children
    obtain ⟨_, htop, -⟩ := hall.top
    have hnew : (u.node h).children = new := by rw [hch, hnode]; rfl
    constructor
    · intro k hb hk
      rcases hb.cases_head with he | ⟨c', hc', hb⟩
      · exact absurd he.symm hk
      · unfold Child at hc'
        rw [hnew] at hc'
        obtain ⟨c, hcs, j, hj, ho⟩ := hor c' hc' hb
        exact ⟨c, j, hcs, hj, ho⟩
    · intro d hd
      cases d with
      | zero => rfl
      | succ d =>
        rw [markupWithin_succ, markupWithin_succ, hnew, hmk d (by omega), htop, hnode]
        rfl

/-! ## How deep a copy has to go -/

theorem foldl_copyWithin_eq {s : Surface} (hs : s.Linked) {d d' : Nat} {h : Slot}
    (ih : ∀ (t : Surface) (c : Slot), t.Linked → (t.node c).live → (∀ p, some h = some p → (t.node p).live) →
      (∀ p, some h = some p → ¬ t.Below c p) → t.Shallow d c → t.Shallow d' c →
      copyWithin d t c (some h) = copyWithin d' t c (some h)) :
    ∀ (cs : List Slot) (t : Surface), t.Linked → (t.node h).live → (∀ c ∈ cs, (s.node c).live) →
      (∀ c ∈ cs, s.Shallow d c ∧ s.Shallow d' c) →
      (∀ c ∈ cs, ∀ j, s.Below c j → t.node j = s.node j ∧ j ≠ h) →
      cs.foldl (fun t c => (copyWithin d t c (some h)).2) t = cs.foldl (fun t c => (copyWithin d' t c (some h)).2) t
  | [], _, _, _, _, _, _ => rfl
  | c :: cs, t, ht, hh, hlive, hsh, hsame => by
    have hcs := hsame c List.mem_cons_self
    have hcl : (t.node c).live := by
      rw [(hcs c (.refl c)).1]; exact hlive c List.mem_cons_self
    have hhp : ∀ p, some h = some p → (t.node p).live := fun p hp => by rw [← Option.some.inj hp]; exact hh
    have hbelow : ∀ {j}, t.Below c j ↔ s.Below c j := below_congr fun j hj => by rw [(hcs j hj).1]
    have hcopy := copies_copyWithin d t c (some h) ht hcl hhp
    have hkeep : ∀ k, s.Below c k → t.node k = s.node k := fun k hk => (hcs k hk).1
    have hout : ∀ p, some h = some p → ¬ t.Below c p := fun p hp hb => (hcs p (hbelow.1 hb)).2 (Option.some.inj hp).symm
    rw [List.foldl_cons, List.foldl_cons, ← ih t c ht hcl hhp hout
      ((hsh c List.mem_cons_self).1.congr fun k hk => congrArg Node.children (hkeep k hk))
      ((hsh c List.mem_cons_self).2.congr fun k hk => congrArg Node.children (hkeep k hk))]
    exact foldl_copyWithin_eq hs ih cs _ hcopy.linked (hcopy.live hh) (fun d hd => hlive d (List.mem_cons_of_mem _ hd))
      (fun d hd => hsh d (List.mem_cons_of_mem _ hd))
      fun d hd => hcopy.same_below hs (hlive d (List.mem_cons_of_mem _ hd)) (hsame d (List.mem_cons_of_mem _ hd))

/-- **Every depth that reaches the bottom gives the same copy.** -/
theorem copyWithin_eq : ∀ (d d' : Nat) (s : Surface) (source : Slot) (parent : Option Slot), s.Linked →
    (s.node source).live → (∀ p, parent = some p → (s.node p).live) → (∀ p, parent = some p → ¬ s.Below source p) →
    s.Shallow d source → s.Shallow d' source → copyWithin d s source parent = copyWithin d' s source parent := by
  intro d
  induction d with
  | zero =>
    intro d' s source parent _ _ _ _ hd _
    cases d' with
    | zero => rfl
    | succ d' => rw [copyWithin_succ, show (s.node source).children = [] from hd]; rfl
  | succ d ih =>
    intro d' s source parent hs hl hp hnot hd hd'
    cases d' with
    | zero => rw [copyWithin_succ, show (s.node source).children = [] from hd']; rfl
    | succ d' =>
      rw [copyWithin_succ, copyWithin_succ]
      have hc := copies_sprout hs hl hp
      congr 1
      refine foldl_copyWithin_eq hs (fun t c => ih d' t c _) _ _ hc.linked ?_
        (fun c hcs => (hs.child (p := source) hcs).2.1) (fun c hcs => ⟨hd c hcs, hd' c hcs⟩)
        fun c hcs => hc.same_below_child hs hnot hcs
      exact (live_sprout_self hs.toFreeSlots hp).trans hl

end Surface
end BoundPage
