import BoundPage.Proofs.Surface.Rows
/-!
# Rows of list items

A node is copied to the end of a row, and its children to a row of their own, which is a beginning of theirs all the
time.  So a copy keeps all rows spaced if the row it comes to has room for it (`WellSpaced.copyWithin`).  The items of
a list are visible, and have the property as their template has it; how many of them there is room for behind the
template is said exactly (`wellSpaced_makeItems_iff`).
-/
namespace BoundPage
open RenderTarget
namespace Surface

variable {s t : Surface} {property value : String} {k h c source template : Slot} {parent : Option Slot}

/-- The row of a parent stays spaced with these children at its end. -/
def RoomFor (s : Surface) (property : String) (parent : Option Slot) (new : Row) : Prop :=
  ∀ k value, parent = some k → s.SpacedBy property k value → Row.Spaced value (s.row property k ++ new)

theorem RoomFor.of_append {new rest : Row} (h : s.RoomFor property parent (new ++ rest)) :
    s.RoomFor property parent new := fun k value hk hrule =>
  Row.Spaced.of_append ((List.append_assoc _ new rest).symm ▸ h k value hk hrule)

/-! ## Copies -/

/-- A node that is added comes to the end of a row. -/
theorem Sprouts.row (hs : s.Linked) (hsp : Sprouts parent h s t) (hk : (s.node k).live) (property : String) :
    t.row property k = s.row property k ++ if parent = some k then [t.look property h] else [] := by
  have hold : (s.node k).children.map (t.look property) = s.row property k :=
    List.map_congr_left fun c hc => look_of_styles (Node.styles_eq (hsp.own (hs.child (p := k) hc).2.1)) property
  unfold Surface.row at hold ⊢
  rw [hsp.node k hk, ← hold]
  split
  · rw [List.map_append]
    rfl
  · rw [List.append_nil]

theorem WellSpaced.sprout (hw : s.WellSpaced property) (hs : s.Linked) (hl : (s.node source).live)
    (hp : ∀ p, parent = some p → (s.node p).live) (hroom : s.RoomFor property parent [s.look property source]) :
    (s.sprout (s.bare source) parent).2.WellSpaced property := by
  have hc := copies_sprout hs hl hp
  have hnode := node_sprout (n := s.bare source) hs.toFreeSlots hp
  generalize (s.sprout (s.bare source) parent).1 = h at hc hnode
  generalize (s.sprout (s.bare source) parent).2 = t at hc hnode ⊢
  intro k value hk hrule
  by_cases hkh : k = h
  · unfold row
    rw [hnode, if_pos hkh]
    exact Row.spaced_nil value
  · have hold : (s.node k).live := by
      rw [hnode, if_neg hkh] at hk
      exact hk
    have hrule' : s.SpacedBy property k value := (spacedBy_of_attributes (Node.attributes_eq (hc.own hold))).1 hrule
    rw [hc.row hs hold, look_of_styles (Node.styles_eq hc.own_top)]
    split
    · next hparent => exact hroom k value hparent hrule'
    · rw [List.append_nil]
      exact hw k value hold hrule'

/-- Some children of a node have been copied to one that was copied from it. -/
structure CopiesRow (s : Surface) (property : String) (source h : Slot) (done : List Slot) (t : Surface) : Prop where
  linked : t.Linked
  spaced : t.WellSpaced property
  live : (t.node h).live
  own : ∀ k, (s.node k).live → (t.node k).own = (s.node k).own
  attributes : (t.node h).attributes = (s.node source).attributes
  row : t.row property h = done.map (s.look property)

/-- **One more child is copied**: the row of the copy is a beginning of the row that is copied. -/
theorem CopiesRow.next {done rest : List Slot} {depth : Nat} (hr : CopiesRow s property source h done t)
    (hw : s.WellSpaced property) (hs : s.Linked) (hl : (s.node source).live)
    (hchildren : (s.node source).children = done ++ c :: rest)
    (ih : t.RoomFor property (some h) [t.look property c] → (copyWithin depth t c (some h)).2.WellSpaced property) :
    CopiesRow s property source h (done ++ [c]) (copyWithin depth t c (some h)).2 := by
  have hcl : (s.node c).live := (hs.child (p := source) (by unfold Child; rw [hchildren]; simp)).2.1
  have hlook : t.look property c = s.look property c := look_of_styles (Node.styles_eq (hr.own c hcl)) property
  have hc : Copies t c (some h) (copyWithin depth t c (some h)).1 (copyWithin depth t c (some h)).2 :=
    copies_copyWithin depth t c (some h) hr.linked ((Node.live_eq (hr.own c hcl)).trans hcl) fun p hp => by
      rw [← Option.some.inj hp]
      exact hr.live
  have hroom : t.RoomFor property (some h) [t.look property c] := by
    intro k value hk hrule
    obtain rfl := Option.some.inj hk
    have hbegin : Row.Spaced value ((done ++ c :: rest).map (s.look property)) := by
      rw [← hchildren]
      exact hw source value hl ((spacedBy_of_attributes hr.attributes).1 hrule)
    rw [← List.singleton_append, ← List.append_assoc, List.map_append] at hbegin
    rw [hr.row, hlook]
    simpa using hbegin.of_append
  exact {
    linked := hc.linked
    spaced := ih hroom
    live := hc.live hr.live
    own := fun k hk => (hc.own ((Node.live_eq (hr.own k hk)).trans hk)).trans (hr.own k hk)
    attributes := (Node.attributes_eq (hc.own hr.live)).trans hr.attributes
    row := by
      rw [hc.row hr.linked hr.live, if_pos rfl, hr.row, look_of_styles (Node.styles_eq hc.own_top), hlook,
        List.map_append]
      rfl }

theorem CopiesRow.foldl {depth : Nat} (hw : s.WellSpaced property) (hs : s.Linked) (hl : (s.node source).live)
    (ih : ∀ (t : Surface) (c : Slot), t.WellSpaced property → t.Linked → (t.node c).live → (t.node h).live →
      t.RoomFor property (some h) [t.look property c] → (copyWithin depth t c (some h)).2.WellSpaced property) :
    ∀ (rest done : List Slot) (t : Surface), (s.node source).children = done ++ rest →
      CopiesRow s property source h done t →
      (rest.foldl (fun t c => (copyWithin depth t c (some h)).2) t).WellSpaced property
  | [], _, _, _, hr => hr.spaced
  | c :: rest, done, t, hchildren, hr => by
    have hcl : (s.node c).live := (hs.child (p := source) (by unfold Child; rw [hchildren]; simp)).2.1
    refine CopiesRow.foldl hw hs hl ih rest (done ++ [c]) _ (by rw [hchildren, List.append_assoc]; rfl) ?_
    exact hr.next hw hs hl hchildren (ih t c hr.spaced hr.linked ((Node.live_eq (hr.own c hcl)).trans hcl) hr.live)

/-- **A copy keeps all rows spaced where there is room for it.** -/
theorem WellSpaced.copyWithin : ∀ (depth : Nat) {s : Surface} {source : Slot} {parent : Option Slot},
    s.WellSpaced property → s.Linked → (s.node source).live → (∀ p, parent = some p → (s.node p).live) →
    s.RoomFor property parent [s.look property source] → (copyWithin depth s source parent).2.WellSpaced property := by
  intro depth
  induction depth with
  | zero => exact fun hw hs hl hp hroom => hw.sprout hs hl hp hroom
  | succ depth ih =>
    intro s source parent hw hs hl hp hroom
    have hc := copies_sprout hs hl hp
    have hwell := hw.sprout hs hl hp hroom
    have hnode := node_sprout (n := s.bare source) hs.toFreeSlots hp (s.sprout (s.bare source) parent).1
    rw [if_pos rfl] at hnode
    rw [copyWithin_succ]
    generalize (s.sprout (s.bare source) parent).1 = h at hc hnode ⊢
    generalize (s.sprout (s.bare source) parent).2 = t at hc hnode hwell ⊢
    refine CopiesRow.foldl hw hs hl (fun u c hw hs hl hh => ih hw hs hl fun p hp => ?_) _ [] t rfl {
      linked := hc.linked
      spaced := hwell
      live := hc.live_top hl
      own := fun k hk => hc.own hk
      attributes := Node.attributes_eq hc.own_top
      row := by unfold row; rw [hnode]; rfl }
    rw [← Option.some.inj hp]
    exact hh

/-! ## Items -/

theorem styles_dress (s : Surface) (h : Slot) (id placeholder item : String) (k : Slot) :
    ((s.dress h id placeholder item).node k).styles = ((s.shownAs h id).node k).styles := by
  unfold dress
  rcases substitute_eq (s.shownAs h id) h placeholder item with he | ⟨j, text, -, -, he⟩
  · rw [he]
  · rw [he, node_modify]
    split <;> rfl

/-- An item is dressed as a visible one, and no other node is changed. -/
theorem look_dress (hh : (s.node h).live) (hproperty : property ≠ "display") (id placeholder item : String) (k : Slot) :
    (s.dress h id placeholder item).look property k =
      if k = h then (true, RenderTarget.style s h property) else s.look property k := by
  have hid : ∀ k, ((s.modify h fun n => { n with id := some id }).node k).styles = (s.node k).styles := fun k => by
    rw [node_modify]
    split <;> rfl
  have hlive : ((s.modify h fun n => { n with id := some id }).node h).live := by
    rw [node_modify]
    split <;> exact hh
  have hr := restyled_setStyle (s.modify h fun n => { n with id := some id }) h "display" none false
  rw [look_of_styles (styles_dress s h id placeholder item k)]
  split
  · next hk =>
    rw [hk]
    refine Prod.ext ?_ ?_
    · show (RenderTarget.style (s.shownAs h id) h "display" != some "none") = true
      rw [shownAs, style_clear hlive]
      rfl
    · show RenderTarget.style (s.shownAs h id) h property = RenderTarget.style s h property
      rw [shownAs]
      refine (hr.style h property fun hc => hproperty hc.2).trans ?_
      exact congrArg Prod.snd (look_of_styles (hid h) property)
  · next hk =>
    rw [shownAs]
    exact (hr.look (fun hc => hk hc.1) fun hc => hk hc.1).trans (look_of_styles (hid k) property)

section

variable (key : NodeKey) (placeholder item : String)

/-- **A new item stands at the end of the row of its template.** -/
theorem row_makeItem (hs : s.Linked) (hl : (s.node template).live) (hproperty : property ≠ "display")
    (hk : (s.node k).live) : (ListRegion.makeItem s template key placeholder item).row property k =
      s.row property k ++
        if (s.node template).parent = some k then [(true, RenderTarget.style s template property)] else [] := by
  rw [(makesItem key placeholder item hs hl).row hs hk, makeItem_eq]
  have hc := copies_copy hs hl
  generalize (s.copy template (s.node template).parent).1 = h at hc ⊢
  generalize (s.copy template (s.node template).parent).2 = u at hc ⊢
  rw [look_dress (hc.live_top hl) hproperty, if_pos rfl]
  have hstyle : RenderTarget.style u h property = RenderTarget.style s template property :=
    congrArg Prod.snd (look_of_styles (Node.styles_eq hc.own_top) property)
  rw [hstyle]

theorem WellSpaced.makeItem (hw : s.WellSpaced property) (hs : s.Linked) (hl : (s.node template).live)
    (hproperty : property ≠ "display")
    (hroom : s.RoomFor property (s.node template).parent [(true, RenderTarget.style s template property)]) :
    (ListRegion.makeItem s template key placeholder item).WellSpaced property := by
  have hp : ∀ p, (s.node template).parent = some p → (s.node p).live := fun _ hp => hs.parent_live hp
  have hm := makesItem key placeholder item hs hl
  have hcopy : (s.copy template (s.node template).parent).2.WellSpaced property :=
    WellSpaced.copyWithin s.size hw hs hl hp fun k value hk hrule => (hroom k value hk hrule).hide_last _
  have hrow : ∀ k, (s.node k).live → _ := fun k hk => row_makeItem key placeholder item hs hl hproperty hk
  have hc := copies_copy hs hl
  rw [makeItem_eq] at hm hrow ⊢
  generalize (s.copy template (s.node template).parent).1 = h at hc hm hrow ⊢
  generalize (s.copy template (s.node template).parent).2 = u at hc hm hrow hcopy ⊢
  have htree := sameTree_dress u h key.text placeholder item
  intro k value hk hrule
  by_cases hold : (s.node k).live
  · have hrule' : s.SpacedBy property k value :=
      (spacedBy_of_attributes (by rw [hm.node k hold])).1 hrule
    rw [hrow k hold]
    split
    · next hparent => exact hroom k value hparent hrule'
    · rw [List.append_nil]
      exact hw k value hold hrule'
  · -- The top of the item is not in the row of a new node.
    have hnot : ∀ c, u.Child k c → c ≠ h := by
      rintro c hchild rfl
      have hparent := (hc.linked.child hchild).2.2
      rw [hc.top] at hparent
      exact hold (hp k hparent)
    rw [row_congr (htree.children k) fun c hchild => by
      rw [look_dress (hc.live_top hl) hproperty, if_neg (hnot c hchild)]]
    rw [htree.live] at hk
    refine hcopy k value hk ((spacedBy_of_attributes ?_).1 hrule)
    rw [node_dress]

end

/-- Items have been made from a live template: all that was there looks the same, and they stand at the end of the row
of the template. -/
structure ItemsMade (s : Surface) (property : String) (template : Slot) (count : Nat) (t : Surface) : Prop where
  linked : t.Linked
  own : ∀ k, (s.node k).live → (t.node k).own = (s.node k).own
  parent : (t.node template).parent = (s.node template).parent
  row : ∀ k, (s.node k).live → t.row property k = s.row property k ++
    if (s.node template).parent = some k then List.replicate count (true, RenderTarget.style s template property) else []

namespace ItemsMade

variable {count : Nat}

theorem refl (hs : s.Linked) : ItemsMade s property template 0 s where
  linked := hs
  own _ _ := rfl
  parent := rfl
  row k _ := by split <;> exact (List.append_nil _).symm

theorem live (h : ItemsMade s property template count t) (hk : (s.node k).live) : (t.node k).live :=
  (Node.live_eq (h.own k hk)).trans hk

theorem style (h : ItemsMade s property template count t) (hl : (s.node template).live) :
    RenderTarget.style t template property = RenderTarget.style s template property :=
  congrArg Prod.snd (look_of_styles (Node.styles_eq (h.own template hl)) property)

theorem next (h : ItemsMade s property template count t) (hl : (s.node template).live) (hproperty : property ≠ "display")
    (key : NodeKey) (placeholder item : String) :
    ItemsMade s property template (count + 1) (ListRegion.makeItem t template key placeholder item) := by
  have hm := makesItem key placeholder item h.linked (h.live hl)
  exact {
    linked := hm.linked
    own := fun k hk => (hm.own (h.live hk)).trans (h.own k hk)
    parent := (hm.parent_eq (h.live hl)).trans h.parent
    row := fun k hk => by
      rw [row_makeItem key placeholder item h.linked (h.live hl) hproperty (h.live hk), h.row k hk, h.parent,
        h.style hl, List.append_assoc]
      split
      · rw [List.replicate_succ']
      · rfl }

/-- Rows are still spaced after one more item if there was room for it and those that are made. -/
theorem wellSpaced_next (h : ItemsMade s property template count t) (hs : s.Linked) (hl : (s.node template).live)
    (hproperty : property ≠ "display") (hw : t.WellSpaced property)
    (hroom : s.RoomFor property (s.node template).parent
      (List.replicate (count + 1) (true, RenderTarget.style s template property)))
    (key : NodeKey) (placeholder item : String) :
    (ListRegion.makeItem t template key placeholder item).WellSpaced property := by
  refine hw.makeItem key placeholder item h.linked (h.live hl) hproperty fun k value hk hrule => ?_
  rw [h.parent] at hk
  have hkl := hs.parent_live hk
  have hrule' : s.SpacedBy property k value := (spacedBy_of_attributes (Node.attributes_eq (h.own k hkl))).1 hrule
  rw [h.row k hkl, if_pos hk, h.style hl, List.append_assoc, ← List.replicate_succ']
  exact hroom k value hk hrule'

end ItemsMade

variable {key : NodeKey}

theorem itemsMade_makeItems (hkey : key.isTemplate) (hs : s.Linked) (hl : (s.node template).live)
    (hproperty : property ≠ "display") (placeholder : String) (items : List String) :
    ItemsMade s property template items.length
      (ListRegion.makeItems s template key placeholder 0 items).1 := by
  have h := ListRegion.makeItems_induction (I := fun count t => ItemsMade s property template count t) hkey template
    placeholder items 0 s (fun t j item key' _ _ ht => ht.next hl hproperty key' placeholder item) (.refl hs)
  rw [Nat.zero_add] at h
  exact h

/-- A template that is gone has no items. -/
theorem node_makeItems_of_dead (hkey : key.isTemplate) (hs : s.Linked) (hd : (s.node template).live = false)
    (placeholder : String) (items : List String) (k : Slot) :
    ((ListRegion.makeItems s template key placeholder 0 items).1.node k).live = (s.node k).live ∧
      ((s.node k).live → (ListRegion.makeItems s template key placeholder 0 items).1.node k = s.node k) :=
  (ListRegion.makeItems_induction (I := fun _ (t : Surface) => t.Linked ∧ (t.node template).live = false ∧
      ∀ k, (t.node k).live = (s.node k).live ∧ ((s.node k).live → t.node k = s.node k)) hkey template placeholder items
    0 s (fun t j item key' _ _ ht => by
      obtain ⟨h, ha⟩ := makeItem_of_dead key' placeholder item ht.1 ht.2.1
      refine ⟨ha.linked, (ha.live template).trans ht.2.1, fun k => ⟨(ha.live k).trans (ht.2.2 k).1, fun hk => ?_⟩⟩
      rw [ha.node ((ht.2.2 k).1.trans hk), (ht.2.2 k).2 hk])
    ⟨hs, hd, fun k => ⟨rfl, fun _ => rfl⟩⟩).2.2 k

/-- **There is room for items behind their template**: there are none, or another child is visible and the template has
the value, or the only item is the only visible child and the template is without the property. -/
def ItemsFit (s : Surface) (property : String) (template : Slot) (count : Nat) : Prop :=
  ∀ k value, (s.node template).parent = some k → s.SpacedBy property k value →
    count = 0 ∨ (∃ c, s.Child k c ∧ isVisible s c) ∧ RenderTarget.style s template property = some value ∨
      (∀ c, s.Child k c → isVisible s c = false) ∧ RenderTarget.style s template property = none ∧ count = 1

theorem roomFor_replicate_iff (hw : s.WellSpaced property) (hs : s.Linked) (count : Nat) :
    s.RoomFor property (s.node template).parent
        (List.replicate count (true, RenderTarget.style s template property)) ↔ s.ItemsFit property template count := by
  refine forall₂_congr fun k value => forall₂_congr fun hk hrule => ?_
  rw [Row.spaced_append_replicate (hw k value (hs.parent_live hk) hrule), shown_row, shown_row_eq_false]

/-- A live template has its items at the end of its row. -/
theorem wellSpaced_makeItems_of_live (hkey : key.isTemplate) (hw : s.WellSpaced property) (hs : s.Linked)
    (hl : (s.node template).live) (hproperty : property ≠ "display") (placeholder : String) (items : List String)
    (hroom : s.RoomFor property (s.node template).parent
      (List.replicate items.length (true, RenderTarget.style s template property))) :
    (ListRegion.makeItems s template key placeholder 0 items).1.WellSpaced property := by
  have hbegin : ∀ m ≤ items.length, s.RoomFor property (s.node template).parent
      (List.replicate m (true, RenderTarget.style s template property)) := fun m hm => by
    rw [← Nat.add_sub_cancel' hm, List.replicate_add] at hroom
    exact hroom.of_append
  have h := ListRegion.makeItems_induction (I := fun count t => ItemsMade s property template count t ∧
      t.WellSpaced property) hkey template placeholder items 0 s (fun t j item key' hitem _ ht => by
    rw [Nat.zero_add] at ht ⊢
    have hj : j < items.length := (List.getElem?_eq_some_iff.1 hitem).1
    exact ⟨ht.1.next hl hproperty key' placeholder item,
      ht.1.wellSpaced_next hs hl hproperty ht.2 (hbegin (j + 1) hj) key' placeholder item⟩)
    ⟨.refl hs, hw⟩
  exact h.2

/-- **The items of a list keep all rows spaced exactly if there is room for them behind their template.** -/
theorem wellSpaced_makeItems_iff (hkey : key.isTemplate) (hs : s.Linked) (hproperty : property ≠ "display")
    (placeholder : String) (items : List String) :
    (ListRegion.makeItems s template key placeholder 0 items).1.WellSpaced property ↔
      s.WellSpaced property ∧ s.ItemsFit property template items.length := by
  by_cases hl : (s.node template).live
  · have hmade := itemsMade_makeItems hkey hs hl hproperty placeholder items
    constructor
    · intro ht
      have hspaced : ∀ k value, (s.node k).live → s.SpacedBy property k value → Row.Spaced value _ :=
        fun k value hk hrule => hmade.row k hk ▸
          ht k value (hmade.live hk) ((spacedBy_of_attributes (Node.attributes_eq (hmade.own k hk))).2 hrule)
      have hw : s.WellSpaced property := fun k value hk hrule => (hspaced k value hk hrule).of_append
      refine ⟨hw, (roomFor_replicate_iff hw hs _).1 fun k value hk hrule => ?_⟩
      have hrow := hspaced k value (hs.parent_live hk) hrule
      rw [if_pos hk] at hrow
      exact hrow
    · rintro ⟨hw, hfit⟩
      exact wellSpaced_makeItems_of_live hkey hw hs hl hproperty placeholder items
        ((roomFor_replicate_iff hw hs _).2 hfit)
  · replace hl : (s.node template).live = false := by simpa using hl
    have hnode := node_makeItems_of_dead hkey hs hl placeholder items
    have hfit : s.ItemsFit property template items.length := fun k value hk => by
      rw [hs.dead_parent hl] at hk
      cases hk
    have hrow : ∀ k, (s.node k).live →
        (ListRegion.makeItems s template key placeholder 0 items).1.row property k = s.row property k := fun k hk => by
      unfold row
      rw [(hnode k).2 hk]
      exact List.map_congr_left fun c hc => look_of_styles (by rw [(hnode c).2 (hs.child (p := k) hc).2.1]) property
    have hrule : ∀ k value, (s.node k).live → ((ListRegion.makeItems s template key placeholder 0 items).1.SpacedBy
        property k value ↔ s.SpacedBy property k value) := fun k value hk =>
      spacedBy_of_attributes (by rw [(hnode k).2 hk])
    constructor
    · refine fun ht => ⟨fun k value hk hr => ?_, hfit⟩
      rw [← hrow k hk]
      exact ht k value ((hnode k).1.trans hk) ((hrule k value hk).2 hr)
    · rintro ⟨hw, -⟩ k value hk hr
      rw [(hnode k).1] at hk
      rw [hrow k hk]
      exact hw k value hk ((hrule k value hk).1 hr)

end Surface
end BoundPage
