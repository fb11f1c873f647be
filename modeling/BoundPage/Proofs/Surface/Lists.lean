import BoundPage.Proofs.Surface.Regions
/-!
# Where a list stands

A list stands on a page if its template is there under a parent, and nothing that a pass writes to is above it
(`HasList`).  It stands there when nodes go or get texts that are neither its template nor above it, and when items are
made, of this list or of another one.
-/
namespace BoundPage

namespace NodeKey

/-- The data-id is that of an item of this template. -/
def isItemText (list : NodeKey) (text : String) : Bool :=
  (Text.beforeSuffix? (":" ++ list.instanceId) text).any fun e => Element.isItemOf e list.element

theorem isItemText_iff {list : NodeKey} {text : String} : list.isItemText text ↔
    ∃ e, Element.isItemOf e list.element ∧ NodeKey.text ⟨e, list.instanceId⟩ = text := by
  unfold isItemText
  rw [Option.any_eq_true]
  refine exists_congr fun e => ?_
  rw [Text.beforeSuffix?_eq_some, and_comm]
  unfold NodeKey.text
  rw [String.append_assoc]
  exact and_congr_right fun _ => eq_comm

theorem isItemText_text {list : NodeKey} {e : String} :
    list.isItemText (NodeKey.text ⟨e, list.instanceId⟩) = Element.isItemOf e list.element := by
  rw [Bool.eq_iff_iff, isItemText_iff]
  constructor
  · rintro ⟨e', he, ht⟩
    rwa [← text_inj_of_instance ht]
  · exact fun he => ⟨e, he, rfl⟩

end NodeKey

namespace Surface
open RenderTarget

/-- The node has the data-id of an item of a list. -/
def itemAt (s : Surface) (list : NodeKey) (h : Slot) : Bool := (s.node h).id.any list.isItemText

theorem itemAt_congr {s t : Surface} {list : NodeKey} {h k : Slot} (hid : (t.node h).id = (s.node k).id) :
    t.itemAt list h = s.itemAt list k := by
  unfold itemAt
  rw [hid]

theorem itemAt_of_id {s : Surface} {list : NodeKey} {h : Slot} {e : String}
    (hid : (s.node h).id = some (NodeKey.text ⟨e, list.instanceId⟩)) :
    s.itemAt list h = Element.isItemOf e list.element := by
  unfold itemAt
  rw [hid]
  exact NodeKey.isItemText_text

theorem itemAt_iff {s : Surface} {list : NodeKey} {h : Slot} : s.itemAt list h ↔
    ∃ e, Element.isItemOf e list.element ∧ (s.node h).id = some (NodeKey.text ⟨e, list.instanceId⟩) := by
  unfold itemAt
  rw [Option.any_eq_true]
  constructor
  · rintro ⟨text, hid, ht⟩
    obtain ⟨e, he, rfl⟩ := NodeKey.isItemText_iff.1 ht
    exact ⟨e, he, hid⟩
  · rintro ⟨e, he, hid⟩
    exact ⟨_, hid, NodeKey.isItemText_iff.2 ⟨e, he, rfl⟩⟩

/-! ## The same below a node -/

/-- **At and below a node, nothing but styles has changed.** -/
def Same (s t : Surface) (h : Slot) : Prop :=
  ∀ k, s.Below h k → t.node k = { s.node k with styles := (t.node k).styles }

namespace Same

variable {s t : Surface} {h : Slot}

theorem children (hst : Same s t h) {k : Slot} (hk : s.Below h k) : (t.node k).children = (s.node k).children := by
  rw [hst k hk]

theorem inside (hst : Same s t h) {c k : Slot} (hc : t.Child h c) (hk : t.Below c k) :
    s.Child h c ∧ s.Below c k ∧ (t.node k).id = (s.node k).id := by
  have hc' : s.Child h c := by
    unfold Child at hc ⊢
    rwa [hst.children (.refl h)] at hc
  have hbelow : ∀ {j}, t.Below c j ↔ s.Below c j :=
    below_congr fun j hj => hst.children (Relation.ReflTransGen.head hc' hj)
  have hk' := hbelow.1 hk
  refine ⟨hc', hk', ?_⟩
  rw [hst k (Relation.ReflTransGen.head hc' hk')]

theorem texts (hst : Same s t h) (hs : s.Rooted) (ht : t.Rooted) (hl : (s.node h).live) :
    t.texts h = s.texts h := by
  have hl' : (t.node h).live := by rw [hst h (.refl h)]; exact hl
  have hsub : t.subtree h = s.subtree h := by
    have hdeep := (hs.shallow hl).congr fun k hk => hst.children hk
    have hdeep' := ht.shallow hl'
    have hpos := Rooted.size_pos hl
    have hpos' := Rooted.size_pos hl'
    unfold subtree
    rw [← walk_congr s.size h fun k hk => hst.children hk]
    rcases Nat.le_total t.size s.size with hle | hle
    · exact hdeep'.walk_eq t.size s.size hpos' (by omega)
    · exact hdeep.walk_eq t.size s.size (by omega) hpos
  unfold Surface.texts
  rw [hsub]
  refine List.map_congr_left fun k hk => ?_
  rw [hst k (below_of_mem_walk hk)]

end Same

theorem Restyled.same {changed : Slot → String → Prop} {s t : Surface} (h : Restyled changed s t) (k : Slot) :
    Same s t k := fun j _ => h.node j

section

variable {s : Surface} {h n : Slot}

theorem same_remove (hs : s.Linked) (hn : (s.node n).live) (hl : (s.node h).live) (hnot : ¬ s.Below n h)
    (hout : ∀ p, (s.node n).parent = some p → ¬ s.Below h p) : Same s (s.remove n) h := fun k hk => by
  have hkn : ¬ s.Below n k := fun hb => by
    rcases hk.comparable hs hb with hhn | hnh
    · rcases hhn.cases_tail with rfl | ⟨p, hp, hpn⟩
      · exact hnot (.refl _)
      · exact hout p (hs.child hpn).2.2 hp
    · exact hnot hnh
  have hkl : ((s.remove n).node k).live := (live_remove_iff hs hn k).2 ⟨hs.live_of_below hk hl, hkn⟩
  rw [node_remove hkl, if_neg fun hp => hout k hp hk]

theorem same_setText (hs : s.Linked) (hl : (s.node h).live) (hnot : ∀ c, s.Child n c → ¬ s.Below c h)
    (hout : ¬ s.Below h n) (text : String) : Same s (s.setText n text) h := fun k hk => by
  have hkn : ∀ c, s.Child n c → ¬ s.Below c k := fun c hc hb => by
    rcases hk.comparable hs hb with hhc | hch
    · rcases hhc.cases_tail with he | ⟨p, hp, hpc⟩
      · exact hnot c hc (by rw [he]; exact .refl h)
      · rw [hs.unique_parent hpc hc] at hp
        exact hout hp
    · exact hnot c hc hch
  have hne : k ≠ n := by
    rintro rfl
    exact hout hk
  rw [(node_setText (live_setText (hs.live_of_below hk hl) hkn text)).2]
  simp [hne]

theorem same_makeItem (hs : s.Linked) (hl : (s.node h).live)
    (hout : ∀ p, (s.node n).parent = some p → ¬ s.Below h p) (key : NodeKey) (placeholder item : String) :
    Same s (ListRegion.makeItem s n key placeholder item) h := fun k hk => by
  have hkl := hs.live_of_below hk hl
  by_cases hn : (s.node n).live
  · rw [(makesItem key placeholder item hs hn).node_eq hkl fun hp => hout k hp hk]
  · obtain ⟨j, ha⟩ := makeItem_of_dead key placeholder item hs (by simpa using hn)
    rw [ha.node hkl]

end

/-! ## Where a list stands -/

/-- **A list stands on a page**: the page is made of trees, and the template of the list is there once, under a parent.
Nothing above it is a template, an item or one of the elements that texts are written to (`bound`), nothing inside it or
its items has a data-id, and its items have distinct data-ids. -/
structure Stands (list : NodeKey) (template parent : Slot) (bound : String → Prop) (texts : List String) (s : Surface) :
    Prop where
  rooted : s.Rooted
  isTemplate : list.isTemplate
  live : (s.node template).live
  id : (s.node template).id = some list.text
  under : (s.node template).parent = some parent
  texts : s.texts template = texts
  unique : ∀ {k}, (s.node k).live → (s.node k).id = some list.text → k = template
  above : ∀ {k e}, s.Below k parent → (s.node k).id = some (NodeKey.text ⟨e, list.instanceId⟩) →
    ¬ (Element.isTemplate e ∨ Element.isItem e ∨ bound e)
  bare : ∀ {c k}, s.Child template c → s.Below c k → (s.node k).id = none
  item_bare : ∀ {h c k}, s.itemAt list h → s.Child h c → s.Below c k → (s.node k).id = none
  item_unique : ∀ {h k}, (s.node h).live → (s.node k).live → s.itemAt list h → (s.node h).id = (s.node k).id → h = k

/-- **A list stands on a page, and no template has an item of it inside**, which would be copied with the template. -/
structure HasList (list : NodeKey) (template parent : Slot) (bound : String → Prop) (texts : List String)
    (s : Surface) : Prop extends Stands list template parent bound texts s where
  outside : ∀ {t e k}, (s.node t).live → (s.node t).id = some (NodeKey.text ⟨e, list.instanceId⟩) →
    Element.isTemplate e → s.Below t k → s.itemAt list k = false

/-- Whether a list stands on a page can be seen from the slots in use. -/
theorem Stands.of_slots {list : NodeKey} {template parent : Slot} {bound : String → Prop} {s : Surface} (hs : s.Rooted)
    (htemplate : list.isTemplate) (hl : (s.node template).live) (hid : (s.node template).id = some list.text)
    (hunder : (s.node template).parent = some parent)
    (hunique : ∀ k ∈ s.liveSlots, (s.node k).id = some list.text → k = template)
    (habove : ∀ k ∈ s.liveSlots, parent ∈ s.subtree k → ∀ e, (s.node k).id = some (NodeKey.text ⟨e, list.instanceId⟩) →
      ¬ (Element.isTemplate e ∨ Element.isItem e ∨ bound e))
    (hbare : ∀ c ∈ (s.node template).children, ∀ k ∈ s.subtree c, (s.node k).id = none)
    (hitem_bare : ∀ h ∈ s.liveSlots, s.itemAt list h → ∀ c ∈ (s.node h).children, ∀ k ∈ s.subtree c,
      (s.node k).id = none)
    (hitem_unique : ∀ h ∈ s.liveSlots, ∀ k ∈ s.liveSlots, s.itemAt list h → (s.node h).id = (s.node k).id → h = k) :
    s.Stands list template parent bound (s.texts template) where
  rooted := hs
  isTemplate := htemplate
  live := hl
  id := hid
  under := hunder
  texts := rfl
  unique hk := hunique _ (s.mem_liveSlots.2 hk)
  above hb := by
    have hk := hs.toLinked.live_of_above hb (hs.toLinked.parent_live hunder)
    exact habove _ (s.mem_liveSlots.2 hk) ((hs.mem_subtree hk).2 hb) _
  bare hc hb := hbare _ hc _ ((hs.mem_subtree (hs.toLinked.child hc).2.1).2 hb)
  item_bare hi hc hb := by
    obtain ⟨hh, hcl, -⟩ := hs.toLinked.child hc
    exact hitem_bare _ (s.mem_liveSlots.2 hh) hi _ hc _ ((hs.mem_subtree hcl).2 hb)
  item_unique hh hk := hitem_unique _ (s.mem_liveSlots.2 hh) _ (s.mem_liveSlots.2 hk)

section

variable {list : NodeKey} {template parent : Slot} {bound : String → Prop} {texts : List String}
  {s t : Surface} {n : Slot} {e : String}

namespace HasList

theorem not_above (hs : s.HasList list template parent bound texts)
    (hid : (s.node n).id = some (NodeKey.text ⟨e, list.instanceId⟩))
    (he : Element.isTemplate e ∨ Element.isItem e ∨ bound e) : ¬ s.Below n parent := fun hb => hs.above hb hid he

theorem not_above_child (hs : s.HasList list template parent bound texts) {h : Slot}
    (hh : (s.node h).parent = some parent) (hid : (s.node n).id = some (NodeKey.text ⟨e, list.instanceId⟩))
    (he : Element.isTemplate e ∨ Element.isItem e ∨ bound e) (hne : n ≠ h) : ¬ s.Below n h := fun hb =>
  hs.not_above hid he (hs.rooted.toLinked.below_parent hb (Ne.symm hne) hh)

theorem not_inside (hs : s.HasList list template parent bound texts) (hid : (s.node n).id ≠ none) {p : Slot}
    (hp : (s.node n).parent = some p) : ¬ s.Below template p := fun hb => by
  have hpn := (hs.rooted.toLinked.parent hp).2
  rcases hb.cases_head with rfl | ⟨c, hc, hcp⟩
  · exact hid (hs.bare hpn (.refl n))
  · exact hid (hs.bare hc (hcp.tail hpn))

theorem not_inside_item (hs : s.HasList list template parent bound texts) {h : Slot} (hh : s.itemAt list h)
    (hid : (s.node n).id ≠ none) {p : Slot} (hp : (s.node n).parent = some p) : ¬ s.Below h p := fun hb => by
  have hpn := (hs.rooted.toLinked.parent hp).2
  rcases hb.cases_head with rfl | ⟨c, hc, hcp⟩
  · exact hid (hs.item_bare hh hpn (.refl n))
  · exact hid (hs.item_bare hh hc (hcp.tail hpn))

/-- **The list stands where it stood if there is less of the page**, but all of the template. -/
theorem shrink (hs : s.HasList list template parent bound texts) (ht : t.Rooted)
    (hchild : ∀ {a b}, t.Child a b → s.Child a b)
    (hnode : ∀ {k}, (t.node k).live → (s.node k).live ∧ (t.node k).id = (s.node k).id ∧
      (t.node k).parent = (s.node k).parent)
    (hl : (t.node template).live) (hsame : Same s t template) : t.HasList list template parent bound texts := by
  have hbelow : ∀ {a b}, t.Below a b → s.Below a b := fun hb => hb.mono fun _ _ => hchild
  have hitem : ∀ {k}, (t.node k).live → t.itemAt list k = s.itemAt list k := fun hk => itemAt_congr (hnode hk).2.1
  have hparent : (t.node template).parent = some parent := (hnode hl).2.2.trans hs.under
  exact {
    rooted := ht
    isTemplate := hs.isTemplate
    live := hl
    id := (hnode hl).2.1.trans hs.id
    under := hparent
    texts := (hsame.texts hs.rooted ht hs.live).trans hs.texts
    unique := fun hk hid => hs.unique (hnode hk).1 ((hnode hk).2.1.symm.trans hid)
    above := fun hb hid => by
      have hk := hnode (ht.toLinked.live_of_above hb (ht.toLinked.parent_live hparent))
      exact hs.above (hbelow hb) (hk.2.1.symm.trans hid)
    bare := fun hc hb => by
      rw [(hnode (ht.toLinked.live_of_below hb (ht.toLinked.child hc).2.1)).2.1]
      exact hs.bare (hchild hc) (hbelow hb)
    item_bare := fun hh hc hb => by
      obtain ⟨hhl, hcl, -⟩ := ht.toLinked.child hc
      rw [hitem hhl] at hh
      rw [(hnode (ht.toLinked.live_of_below hb hcl)).2.1]
      exact hs.item_bare hh (hchild hc) (hbelow hb)
    item_unique := fun hh hk hi hid => by
      rw [hitem hh] at hi
      exact hs.item_unique (hnode hh).1 (hnode hk).1 hi ((hnode hh).2.1.symm.trans (hid.trans (hnode hk).2.1))
    outside := fun hu hid he hb => by
      rw [hitem (ht.toLinked.live_of_below hb hu)]
      exact hs.outside (hnode hu).1 ((hnode hu).2.1.symm.trans hid) he (hbelow hb) }

theorem restyled {changed : Slot → String → Prop} (hs : s.HasList list template parent bound texts)
    (h : Restyled changed s t) : t.HasList list template parent bound texts := by
  refine hs.shrink (hs.rooted.sameTree h.sameTree) h.sameTree.child_iff.1 (fun {k} hk => ?_) ?_ (h.same template)
  · rw [h.sameTree.live] at hk
    rw [h.node]
    exact ⟨hk, rfl, rfl⟩
  · rw [h.sameTree.live]
    exact hs.live

/-- An item goes, of this list or of another one. -/
theorem remove (hs : s.HasList list template parent bound texts) (hn : (s.node n).live)
    (hid : (s.node n).id = some (NodeKey.text ⟨e, list.instanceId⟩)) (he : Element.isItem e) :
    (s.remove n).HasList list template parent bound texts := by
  have hlink := hs.rooted.toLinked
  have hne : n ≠ template := by
    rintro rfl
    have ht : Element.isTemplate list.element := hs.isTemplate
    have hkey : Element.isItem (NodeKey.mk e list.instanceId).element := he
    rw [hs.id] at hid
    exact NodeKey.text_ne_of_item hkey rfl (Element.isItem_of_isTemplate ht) (Option.some.inj hid).symm
  have hnot : ¬ s.Below n template := hs.not_above_child hs.under hid (.inr (.inl he)) hne
  refine hs.shrink (hs.rooted.remove hn) (child_remove hlink hn) (fun {k} hk => ?_)
    ((live_remove_iff hlink hn template).2 ⟨hs.live, hnot⟩)
    (same_remove hlink hn hs.live hnot fun p hp => hs.not_inside (by rw [hid]; exact Option.some_ne_none _) hp)
  exact ⟨live_of_live_remove hk, Node.id_eq (own_remove hk), parent_remove hk⟩

/-- A node gets a text that is neither a template nor above the list. -/
theorem setText (hs : s.HasList list template parent bound texts)
    (hid : (s.node n).id = some (NodeKey.text ⟨e, list.instanceId⟩)) (hplain : Element.isTemplate e = false)
    (he : Element.isItem e ∨ bound e) (text : String) :
    (s.setText n text).HasList list template parent bound texts := by
  have hlink := hs.rooted.toLinked
  have hne : n ≠ template := by
    rintro rfl
    rw [hs.id] at hid
    rw [← NodeKey.text_inj_of_instance (Option.some.inj hid)] at hplain
    rw [show Element.isTemplate list.element = true from hs.isTemplate] at hplain
    cases hplain
  have hnot : ∀ c, s.Child n c → ¬ s.Below c template := fun c hc hb =>
    hs.not_above_child hs.under hid (.inr he) hne (Relation.ReflTransGen.head hc hb)
  have hout : ¬ s.Below template n := fun hb => by
    rcases hb.cases_head with h | ⟨c, hc, hcn⟩
    · exact hne h.symm
    · rw [hs.bare hc hcn] at hid
      cases hid
  refine hs.shrink (hs.rooted.setText n text) (child_setText hlink) (fun {k} hk => ?_) (live_setText hs.live hnot text)
    (same_setText hlink hs.live hnot hout text)
  obtain ⟨hl, hk⟩ := node_setText hk
  rw [hk]
  exact ⟨hl, rfl, rfl⟩

/-! ## New items -/

section

variable {b : Slot} {key : NodeKey} {placeholder item : String}

/-- What is strictly below a new item is no item of this list. -/
theorem not_item_inside (hs : s.HasList list template parent bound texts) (hl : (s.node b).live)
    (hid : (s.node b).id = some (NodeKey.text ⟨e, list.instanceId⟩)) (he : Element.isTemplate e) {k : Slot}
    (hb : (ListRegion.makeItem s b key placeholder item).Below (s.copy b (s.node b).parent).1 k)
    (hk : k ≠ (s.copy b (s.node b).parent).1) :
    (ListRegion.makeItem s b key placeholder item).itemAt list k = false := by
  obtain ⟨c, j, hc, hj, hkj⟩ := id_makeItem key placeholder item hs.rooted.toLinked hl
    (fun _ hp => hs.rooted.not_below_parent hp) hb hk
  rw [itemAt_congr hkj]
  exact hs.outside hl hid he (Relation.ReflTransGen.head hc hj)

/-- **An item of this list was there before, or it is the one that is made.** -/
theorem item_makeItem (hs : s.HasList list template parent bound texts) (hl : (s.node b).live)
    (hid : (s.node b).id = some (NodeKey.text ⟨e, list.instanceId⟩)) (he : Element.isTemplate e)
    (hinst : key.instanceId = list.instanceId) {k : Slot}
    (hk : ((ListRegion.makeItem s b key placeholder item).node k).live)
    (hi : (ListRegion.makeItem s b key placeholder item).itemAt list k) :
    (s.node k).live ∧ s.itemAt list k ∨
      k = (s.copy b (s.node b).parent).1 ∧ Element.isItemOf key.element list.element := by
  have hm := makesItem key placeholder item hs.rooted.toLinked hl
  by_cases hkl : (s.node k).live
  · rw [itemAt_congr (Node.id_eq (hm.own hkl))] at hi
    exact .inl ⟨hkl, hi⟩
  · refine .inr ?_
    have hkh : k = (s.copy b (s.node b).parent).1 := by
      by_contra hne
      rw [hs.not_item_inside hl hid he (hm.below_of_new hk (by simpa using hkl)) hne] at hi
      cases hi
    have htop : ((ListRegion.makeItem s b key placeholder item).node k).id =
        some (NodeKey.text ⟨key.element, list.instanceId⟩) := by
      rw [hkh, hm.id_top, ← hinst]
    rw [itemAt_of_id htop] at hi
    exact ⟨hkh, hi⟩

theorem eq_template (hs : s.HasList list template parent bound texts) (hl : (s.node b).live)
    (hid : (s.node b).id = some (NodeKey.text ⟨e, list.instanceId⟩)) {e' : String} (he : Element.isItemOf e' e)
    (he' : Element.isItemOf e' list.element) : b = template := by
  rw [Element.template_unique he he'] at hid
  exact hs.unique hl hid

section

variable (hs : s.HasList list template parent bound texts) (hl : (s.node b).live)
  (hid : (s.node b).id = some (NodeKey.text ⟨e, list.instanceId⟩)) (he : Element.isTemplate e)
  (hkey : Element.isItemOf key.element e) (hinst : key.instanceId = list.instanceId)

include hs hl hid he hkey hinst

/-- The template of the list is not copied as a part of another template, and an item does not have its data-id. -/
theorem unique_makeItem {k : Slot} (hk : ((ListRegion.makeItem s b key placeholder item).node k).live)
    (hkid : ((ListRegion.makeItem s b key placeholder item).node k).id = some list.text) : k = template := by
  have hlink := hs.rooted.toLinked
  have hm := makesItem key placeholder item hlink hl
  by_cases hkl : (s.node k).live
  · exact hs.unique hkl ((Node.id_eq (hm.own hkl)).symm.trans hkid)
  · exfalso
    by_cases hkh : k = (s.copy b (s.node b).parent).1
    · have ht : Element.isTemplate list.element := hs.isTemplate
      rw [hkh, hm.id_top] at hkid
      exact NodeKey.text_ne_of_item (Element.isItem_of_isItemOf hkey) hinst (Element.isItem_of_isTemplate ht)
        (Option.some.inj hkid)
    · obtain ⟨c, j, hc, hj, hkj⟩ := id_makeItem key placeholder item hlink hl
        (fun _ hp => hs.rooted.not_below_parent hp) (hm.below_of_new hk (by simpa using hkl)) hkh
      rw [hkj] at hkid
      obtain rfl := hs.unique (hlink.live_of_below hj (hlink.child hc).2.1) hkid
      by_cases hbt : b = j
      · subst hbt
        rw [hs.bare hc hj] at hkid
        cases hkid
      · exact hs.not_above_child hs.under hid (.inl he) hbt (hj.head hc)

theorem item_bare_makeItem {i c k : Slot} (hi : (ListRegion.makeItem s b key placeholder item).itemAt list i)
    (hc : (ListRegion.makeItem s b key placeholder item).Child i c)
    (hb : (ListRegion.makeItem s b key placeholder item).Below c k) :
    ((ListRegion.makeItem s b key placeholder item).node k).id = none := by
  have hlink := hs.rooted.toLinked
  have hr := hs.rooted.makeItem key placeholder item hl
  have hm := makesItem key placeholder item hlink hl
  have hil := (hr.toLinked.child hc).1
  by_cases hio : (s.node i).live
  · rw [itemAt_congr (Node.id_eq (hm.own hio))] at hi
    have hsame : Same s (ListRegion.makeItem s b key placeholder item) i :=
      same_makeItem hlink hio (fun _ hp => hs.not_inside_item hi (by rw [hid]; exact Option.some_ne_none _) hp) key
        placeholder item
    obtain ⟨hc', hb', hkid⟩ := hsame.inside hc hb
    rw [hkid]
    exact hs.item_bare hi hc' hb'
  · obtain ⟨rfl, hlist⟩ := (hs.item_makeItem hl hid he hinst hil hi).resolve_left fun h => hio h.1
    obtain rfl := hs.eq_template hl hid hkey hlist
    have hki : k ≠ (s.copy b (s.node b).parent).1 := by
      rintro rfl
      exact hr.not_below_parent (hr.toLinked.child hc).2.2 hb
    obtain ⟨c', j, hc', hj, hkj⟩ := id_makeItem key placeholder item hlink hl
      (fun _ hp => hs.rooted.not_below_parent hp) (hb.head hc) hki
    rw [hkj]
    exact hs.bare hc' hj

omit hkey in
/-- The items of the list have distinct data-ids if that of a new one was free. -/
theorem item_unique_makeItem
    (hfresh : Element.isItemOf key.element list.element → ∀ k, (s.node k).live → (s.node k).id ≠ some key.text)
    {i k : Slot} (hil : ((ListRegion.makeItem s b key placeholder item).node i).live)
    (hkl : ((ListRegion.makeItem s b key placeholder item).node k).live)
    (hi : (ListRegion.makeItem s b key placeholder item).itemAt list i)
    (hik : ((ListRegion.makeItem s b key placeholder item).node i).id =
      ((ListRegion.makeItem s b key placeholder item).node k).id) : i = k := by
  have hm := makesItem key placeholder item hs.rooted.toLinked hl
  have hk : (ListRegion.makeItem s b key placeholder item).itemAt list k := by
    rw [itemAt_congr hik.symm]
    exact hi
  rcases hs.item_makeItem hl hid he hinst hil hi with ⟨hio, hi⟩ | ⟨rfl, hlist⟩
  · rw [Node.id_eq (hm.own hio)] at hik
    rcases hs.item_makeItem hl hid he hinst hkl hk with ⟨hko, -⟩ | ⟨rfl, hlist⟩
    · exact hs.item_unique hio hko hi (hik.trans (Node.id_eq (hm.own hko)))
    · exact absurd (hik.trans hm.id_top) (hfresh hlist i hio)
  · rw [hm.id_top] at hik
    rcases hs.item_makeItem hl hid he hinst hkl hk with ⟨hko, -⟩ | ⟨rfl, -⟩
    · exact absurd ((Node.id_eq (hm.own hko)).symm.trans hik.symm) (hfresh hlist k hko)
    · rfl

/-- A new item of the list is not inside a template. -/
theorem outside_makeItem {t k : Slot} {e' : String}
    (ht : ((ListRegion.makeItem s b key placeholder item).node t).live)
    (htid : ((ListRegion.makeItem s b key placeholder item).node t).id = some (NodeKey.text ⟨e', list.instanceId⟩))
    (he' : Element.isTemplate e') (hb : (ListRegion.makeItem s b key placeholder item).Below t k) :
    (ListRegion.makeItem s b key placeholder item).itemAt list k = false := by
  have hlink := hs.rooted.toLinked
  have hr := (hs.rooted.makeItem key placeholder item hl).toLinked
  have hm := makesItem key placeholder item hlink hl
  have hsp := hm.toSprouts
  by_contra hk
  rcases hs.item_makeItem hl hid he hinst (hr.live_of_below hb ht) (eq_true_of_ne_false hk) with
    ⟨hko, hki⟩ | ⟨rfl, hlist⟩
  · obtain ⟨hto, hb'⟩ := hsp.below_old hlink hr hb hko
    rw [hs.outside hto ((Node.id_eq (hm.own hto)).symm.trans htid) he' hb'] at hki
    cases hki
  · obtain rfl := hs.eq_template hl hid hkey hlist
    by_cases htk : t = (s.copy b (s.node b).parent).1
    · rw [htk, hm.id_top] at htid
      exact NodeKey.text_ne_of_item (Element.isItem_of_isItemOf hkey) hinst (Element.isItem_of_isTemplate he')
        (Option.some.inj htid)
    · have htp := hr.below_parent hb (Ne.symm htk) (hm.top.trans hs.under)
      obtain ⟨hto, htp'⟩ := hsp.below_old hlink hr htp (hlink.parent_live hs.under)
      exact hs.above htp' ((Node.id_eq (hm.own hto)).symm.trans htid) (.inl he')

/-- **The list stands where it stood when an item of any list is made**, if its data-id is free when it is one of this
list. -/
theorem makeItem_live
    (hfresh : Element.isItemOf key.element list.element → ∀ k, (s.node k).live → (s.node k).id ≠ some key.text) :
    (ListRegion.makeItem s b key placeholder item).HasList list template parent bound texts := by
  have hlink := hs.rooted.toLinked
  have hr := hs.rooted.makeItem key placeholder item hl
  have hm := makesItem key placeholder item hlink hl
  have hsame : Same s (ListRegion.makeItem s b key placeholder item) template :=
    same_makeItem hlink hs.live (fun _ hp => hs.not_inside (by rw [hid]; exact Option.some_ne_none _) hp) key
      placeholder item
  exact {
    rooted := hr
    isTemplate := hs.isTemplate
    live := hm.live hs.live
    id := (Node.id_eq (hm.own hs.live)).trans hs.id
    under := (hm.parent_eq hs.live).trans hs.under
    texts := (hsame.texts hs.rooted hr hs.live).trans hs.texts
    unique := fun hk hkid => hs.unique_makeItem hl hid he hkey hinst hk hkid
    above := fun hb hkid => by
      obtain ⟨hkl, hb'⟩ := hm.toSprouts.below_old hlink hr.toLinked hb (hlink.parent_live hs.under)
      exact hs.above hb' ((Node.id_eq (hm.own hkl)).symm.trans hkid)
    bare := fun hc hb => by
      obtain ⟨hc', hb', hi⟩ := hsame.inside hc hb
      rw [hi]
      exact hs.bare hc' hb'
    item_bare := fun hi hc hb => hs.item_bare_makeItem hl hid he hkey hinst hi hc hb
    item_unique := fun hi hk hitem hik => hs.item_unique_makeItem hl hid he hinst hfresh hi hk hitem hik
    outside := fun ht htid he' hb => hs.outside_makeItem hl hid he hkey hinst ht htid he' hb }

end

/-- The same when the template may have been removed. -/
theorem makeItem (hs : s.HasList list template parent bound texts)
    (hid : (s.node b).live → (s.node b).id = some (NodeKey.text ⟨e, list.instanceId⟩)) (he : Element.isTemplate e)
    (hkey : Element.isItemOf key.element e) (hinst : key.instanceId = list.instanceId)
    (hfresh : Element.isItemOf key.element list.element → ∀ k, (s.node k).live → (s.node k).id ≠ some key.text) :
    (ListRegion.makeItem s b key placeholder item).HasList list template parent bound texts := by
  by_cases hl : (s.node b).live
  · exact hs.makeItem_live hl (hid hl) he hkey hinst hfresh
  · obtain ⟨j, ha⟩ := makeItem_of_dead key placeholder item hs.rooted.toLinked (by simpa using hl)
    have hnode : ∀ {k}, ((ListRegion.makeItem s b key placeholder item).node k).live → (s.node k).live ∧
        (ListRegion.makeItem s b key placeholder item).node k = s.node k := fun hk => by
      rw [ha.live] at hk
      exact ⟨hk, ha.node hk⟩
    refine hs.shrink (ListRegion.rooted_makeItem hs.rooted key item) (fun {c d} hcd => ?_) (fun hk => ?_)
      (by rw [ha.live]; exact hs.live) fun k hk => ?_
    · have hcl := (ha.linked.child hcd).1
      unfold Child at hcd ⊢
      rwa [(hnode hcl).2] at hcd
    · rw [(hnode hk).2]
      exact ⟨(hnode hk).1, rfl, rfl⟩
    · rw [ha.node (hs.rooted.toLinked.live_of_below hk hs.live)]

end

end HasList

end

end Surface
end BoundPage
