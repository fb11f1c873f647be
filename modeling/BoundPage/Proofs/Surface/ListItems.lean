import BoundPage.Proofs.Surface.Lists
/-!
# What the items of a list show

The items of a list stand in order under the parent of its template, each with the texts of the template and its own
item in the place of the placeholder (`ShowsList`).  What happens elsewhere on the page spares them (`SparesList`), and
a list that is rebuilt shows its new items and nothing else (`showsList_makeItems`).
-/
namespace BoundPage
namespace Surface
open RenderTarget

/-- The items of a list among the children of a node, in order. -/
def itemsOf (s : Surface) (list : NodeKey) (parent : Slot) : List Slot :=
  (s.node parent).children.filter (s.itemAt list)

/-- **The items of a list stand in order under the parent of its template**, with their texts. -/
structure ShowsList (list : NodeKey) (parent : Slot) (texts : List (List String)) (s : Surface) : Prop where
  only : ∀ {h}, (s.node h).live → s.itemAt list h → (s.node h).parent = some parent
  ids : (s.itemsOf list parent).map (fun h => (s.node h).id) =
    (List.range texts.length).map fun i => (list.item? i).map NodeKey.text
  texts : (s.itemsOf list parent).map s.texts = texts

/-- **A list is left as it stands**: it shows what it showed, and no item of it is new. -/
structure SparesList (list : NodeKey) (template parent : Slot) (bound : String → Prop) (texts : List String)
    (s t : Surface) : Prop where
  hasList : t.HasList list template parent bound texts
  shows : ∀ {shown}, s.ShowsList list parent shown → t.ShowsList list parent shown
  old : ∀ {h}, (t.node h).live → t.itemAt list h → (s.node h).live ∧ (t.node h).id = (s.node h).id

section

variable {list : NodeKey} {template parent : Slot} {bound : String → Prop} {texts : List String}
  {shown : List (List String)} {s t : Surface} {n : Slot} {e : String}

/-! ## What the items show -/

theorem mem_itemsOf {k : Slot} : k ∈ s.itemsOf list parent ↔ s.Child parent k ∧ s.itemAt list k := List.mem_filter

/-- The items that are left, if the parent has lost no items. -/
theorem itemsOf_eq (ht : t.Linked) (gone : Slot → Bool)
    (hchildren : (t.node parent).children = (s.node parent).children.filter fun k => !gone k)
    (hgone : ∀ k, s.itemAt list k → gone k = false)
    (hid : ∀ {k}, (t.node k).live → (t.node k).id = (s.node k).id) :
    t.itemsOf list parent = s.itemsOf list parent := by
  have hfilter : t.itemsOf list parent = (t.node parent).children.filter (s.itemAt list) :=
    List.filter_congr fun k hk => itemAt_congr (hid (ht.child hk).2.1)
  rw [hfilter, hchildren, List.filter_filter]
  refine List.filter_congr fun k _ => ?_
  by_cases hk : s.itemAt list k
  · rw [hk, hgone k hk]
    rfl
  · rw [eq_false_of_ne_true hk]
    rfl

/-- The items when one more node has been added. -/
theorem itemsOf_sprouts {above : Option Slot} {h : Slot} (hs : s.Linked) (hsp : Sprouts above h s t)
    (hl : (s.node parent).live) : t.itemsOf list parent =
      s.itemsOf list parent ++ if above = some parent then [h].filter (t.itemAt list) else [] := by
  have hold : (s.node parent).children.filter (t.itemAt list) = s.itemsOf list parent :=
    List.filter_congr fun k hk => itemAt_congr (Node.id_eq (hsp.own (hs.child hk).2.1))
  unfold itemsOf at hold ⊢
  rw [hsp.node parent hl, ← hold]
  by_cases hp : above = some parent
  · simp only [hp, if_true, List.filter_append]
  · simp only [hp, if_false, List.append_nil]

theorem ne_of_item {k : Slot} (hk : s.itemAt list k) (hid : (s.node n).id = some (NodeKey.text ⟨e, list.instanceId⟩))
    (hother : Element.isItemOf e list.element = false) : n ≠ k := by
  rintro rfl
  rw [itemAt_of_id hid, hother] at hk
  cases hk

/-! ## What spares a list -/

namespace SparesList

theorem refl (hs : s.HasList list template parent bound texts) : SparesList list template parent bound texts s s :=
  ⟨hs, fun h => h, fun hl _ => ⟨hl, rfl⟩⟩

theorem trans {u : Surface} (h : SparesList list template parent bound texts s t)
    (h' : SparesList list template parent bound texts t u) : SparesList list template parent bound texts s u where
  hasList := h'.hasList
  shows hs := h'.shows (h.shows hs)
  old hl hi := by
    obtain ⟨hl', hid⟩ := h'.old hl hi
    rw [itemAt_congr hid] at hi
    obtain ⟨hl'', hid'⟩ := h.old hl' hi
    exact ⟨hl'', hid.trans hid'⟩

/-- **Items to which nothing happens show what they showed**, if no other ones come. -/
theorem of_same (hs : s.HasList list template parent bound texts) (ht : t.HasList list template parent bound texts)
    (hitems : t.itemsOf list parent = s.itemsOf list parent) (hsame : ∀ k ∈ s.itemsOf list parent, Same s t k)
    (hold : ∀ {k}, (t.node k).live → t.itemAt list k → (s.node k).live ∧ (t.node k).id = (s.node k).id ∧
      (t.node k).parent = (s.node k).parent) : SparesList list template parent bound texts s t where
  hasList := ht
  old hl hi := ⟨(hold hl hi).1, (hold hl hi).2.1⟩
  shows h :=
    { only := fun hk hi => by
        obtain ⟨hk', hid, hp⟩ := hold hk hi
        rw [itemAt_congr hid] at hi
        exact hp.trans (h.only hk' hi)
      ids := by
        rw [hitems, ← h.ids]
        refine List.map_congr_left fun k hk => ?_
        rw [hsame k hk k (.refl k)]
      texts := by
        rw [hitems]
        refine Eq.trans (List.map_congr_left fun k hk => ?_) h.texts
        exact (hsame k hk).texts hs.rooted ht.rooted (hs.rooted.toLinked.child (mem_itemsOf.1 hk).1).2.1 }

theorem restyled {changed : Slot → String → Prop} (hs : s.HasList list template parent bound texts)
    (hr : Restyled changed s t) : SparesList list template parent bound texts s t := by
  have hid : ∀ k, (t.node k).id = (s.node k).id := fun k => by rw [hr.node]
  have ht := hs.restyled hr
  refine of_same hs ht (itemsOf_eq ht.rooted.toLinked (fun _ => false) ?_ (fun _ _ => rfl) fun _ => hid _)
    (fun k _ => hr.same k) fun {k} hk _ => ?_
  · rw [hr.sameTree.children]
    simp
  · rw [hr.sameTree.live] at hk
    exact ⟨hk, hid k, hr.sameTree.parent k⟩

/-- **An item of another list goes.** -/
theorem remove (hs : s.HasList list template parent bound texts) (hn : (s.node n).live)
    (hid : (s.node n).id = some (NodeKey.text ⟨e, list.instanceId⟩)) (he : Element.isItem e)
    (hother : Element.isItemOf e list.element = false) :
    SparesList list template parent bound texts s (s.remove n) := by
  have hlink := hs.rooted.toLinked
  have hbid : (s.node n).id ≠ none := by
    rw [hid]
    exact Option.some_ne_none _
  have hown : ∀ {k}, ((s.remove n).node k).live → ((s.remove n).node k).id = (s.node k).id := fun hk =>
    Node.id_eq (own_remove hk)
  have hparent : ((s.remove n).node parent).live := (live_remove_iff hlink hn parent).2
    ⟨hlink.parent_live hs.under, hs.not_above hid (.inr (.inl he))⟩
  refine of_same hs (hs.remove hn hid he)
    (itemsOf_eq (hlink.remove hn) (fun k => (s.node n).parent == some parent && k == n) ?_ (fun k hk => ?_) hown)
    (fun k hk => ?_) fun {k} hk _ => ⟨live_of_live_remove hk, hown hk, parent_remove hk⟩
  · rw [node_remove hparent]
    by_cases hp : (s.node n).parent = some parent
    · simp only [hp, if_true, beq_self_eq_true, Bool.true_and]
      rfl
    · simp only [hp, if_false, beq_eq_false_iff_ne.2 hp, Bool.false_and, Bool.not_false, List.filter_true]
  · rw [Bool.and_eq_false_iff]
    exact .inr (by simpa using (ne_of_item hk hid hother).symm)
  · obtain ⟨hc, hi⟩ := mem_itemsOf.1 hk
    obtain ⟨-, hkl, hkp⟩ := hlink.child hc
    exact same_remove hlink hn hkl (hs.not_above_child hkp hid (.inr (.inl he)) (ne_of_item hi hid hother))
      fun p hp => hs.not_inside_item hi hbid hp

/-- **A text is written to a node that is neither a template nor an item of this list.** -/
theorem setText (hs : s.HasList list template parent bound texts)
    (hid : (s.node n).id = some (NodeKey.text ⟨e, list.instanceId⟩)) (hplain : Element.isTemplate e = false)
    (he : Element.isItem e ∨ bound e) (hother : Element.isItemOf e list.element = false) (text : String) :
    SparesList list template parent bound texts s (s.setText n text) := by
  have hlink := hs.rooted.toLinked
  have hnode : ∀ {k}, ((s.setText n text).node k).live → (s.node k).live ∧
      ((s.setText n text).node k).id = (s.node k).id ∧ ((s.setText n text).node k).parent = (s.node k).parent :=
    fun hk => by
      obtain ⟨hl, hk⟩ := node_setText hk
      rw [hk]
      exact ⟨hl, rfl, rfl⟩
  have hnp : ¬ s.Below n parent := hs.not_above hid (.inr he)
  have hparent := live_setText (hlink.parent_live hs.under) (fun c (hc : s.Child n c) hb => hnp (hb.head hc)) text
  refine of_same hs (hs.setText hid hplain he text)
    (itemsOf_eq (hlink.setText n text) (fun _ => false) ?_ (fun _ _ => rfl) fun hk => (hnode hk).2.1)
    (fun k hk => ?_) fun hk _ => hnode hk
  · have hne : parent ≠ n := by
      rintro rfl
      exact hnp (.refl _)
    rw [(node_setText hparent).2]
    simp [hne]
  · obtain ⟨hc, hi⟩ := mem_itemsOf.1 hk
    obtain ⟨-, hkl, hkp⟩ := hlink.child hc
    have hne := ne_of_item hi hid hother
    refine same_setText hlink hkl (fun c hc' hb => hs.not_above_child hkp hid (.inr he) hne (hb.head hc'))
      (fun hb => ?_) text
    rcases hb.cases_head with he' | ⟨c, hc', hcn⟩
    · exact hne he'.symm
    · rw [hs.item_bare hi hc' hcn] at hid
      cases hid

section

variable {b : Slot} {key : NodeKey} {placeholder item : String}

/-- **An item of another list is made.** -/
theorem makeItem (hs : s.HasList list template parent bound texts)
    (hid : (s.node b).live → (s.node b).id = some (NodeKey.text ⟨e, list.instanceId⟩)) (he : Element.isTemplate e)
    (hkey : Element.isItemOf key.element e) (hinst : key.instanceId = list.instanceId)
    (hother : Element.isItemOf key.element list.element = false) :
    SparesList list template parent bound texts s (ListRegion.makeItem s b key placeholder item) := by
  have hlink := hs.rooted.toLinked
  have hparent := hlink.parent_live hs.under
  have ht : (ListRegion.makeItem s b key placeholder item).HasList list template parent bound texts :=
    hs.makeItem hid he hkey hinst fun h => by
      rw [hother] at h
      cases h
  by_cases hl : (s.node b).live
  · have hm := makesItem key placeholder item hlink hl
    have hold : ∀ {k}, ((ListRegion.makeItem s b key placeholder item).node k).live →
        (ListRegion.makeItem s b key placeholder item).itemAt list k → (s.node k).live :=
      fun hk hi => ((hs.item_makeItem hl (hid hl) he hinst hk hi).resolve_right fun h => by
        rw [hother] at h
        cases h.2).1
    refine of_same hs ht ?_ (fun k hk => ?_) fun {k} hk hi => ?_
    · have htop :
          (ListRegion.makeItem s b key placeholder item).itemAt list (s.copy b (s.node b).parent).1 = false := by
        by_contra hi
        have := hold hm.live_top (by simpa using hi)
        rw [hm.fresh] at this
        cases this
      rw [itemsOf_sprouts hlink hm.toSprouts hparent]
      simp [htop]
    · obtain ⟨hc, hi⟩ := mem_itemsOf.1 hk
      refine same_makeItem hlink (hlink.child hc).2.1 (fun _ hp => hs.not_inside_item hi ?_ hp) key placeholder item
      rw [hid hl]
      exact Option.some_ne_none _
    · have hkl := hold hk hi
      exact ⟨hkl, Node.id_eq (hm.own hkl), hm.parent_eq hkl⟩
  · obtain ⟨j, ha⟩ := makeItem_of_dead key placeholder item hlink (by simpa using hl)
    have hold : ∀ {k}, ((ListRegion.makeItem s b key placeholder item).node k).live → (s.node k).live ∧
        (ListRegion.makeItem s b key placeholder item).node k = s.node k := fun hk => by
      rw [ha.live] at hk
      exact ⟨hk, ha.node hk⟩
    refine of_same hs ht (itemsOf_eq ha.linked (fun _ => false) ?_ (fun _ _ => rfl) fun hk => by rw [(hold hk).2])
      (fun k hk j hj => ?_) fun {k} hk _ => ?_
    · rw [ha.node hparent]
      simp
    · have hkl := (hlink.child (mem_itemsOf.1 hk).1).2.1
      rw [ha.node (hlink.live_of_below hj hkl)]
    · rw [(hold hk).2]
      exact ⟨(hold hk).1, rfl, rfl⟩

/-- **The items of another list go.** -/
theorem destroyAll (hs : s.HasList list template parent bound texts) (keys : List NodeKey)
    (hkeys : ∀ key ∈ keys, key.instanceId = list.instanceId ∧ Element.isItem key.element ∧
      Element.isItemOf key.element list.element = false) :
    SparesList list template parent bound texts s (ListRegion.destroyAll s keys).1 :=
  ListRegion.destroyAll_induction (I := SparesList list template parent bound texts s) keys s
    (fun t n key hk ht hl => by
      obtain ⟨hinst, he, hother⟩ := hkeys key hk
      obtain ⟨hn, hid⟩ := ListRegion.locate_live hl
      refine ht.trans (remove ht.hasList hn ?_ he hother)
      rw [hid, ← hinst]) (.refl hs)

/-- **The items of another list are made.** -/
theorem makeItems (hs : s.HasList list template parent bound texts) {k : NodeKey} (hk : k.isTemplate)
    (hinst : k.instanceId = list.instanceId) (hne : k.element ≠ list.element)
    (hid : (s.node b).live → (s.node b).id = some k.text) (items : List String) :
    SparesList list template parent bound texts s (ListRegion.makeItems s b k placeholder 0 items).1 := by
  refine (ListRegion.makeItems_induction (I := fun _ t => SparesList list template parent bound texts s t ∧
    ((t.node b).live → (t.node b).id = some k.text)) hk b placeholder items 0 s (fun t i item key _ hkey ht => ?_)
    ⟨.refl hs, hid⟩).1
  obtain ⟨he, hki⟩ := NodeKey.item?_eq_some hkey
  have hitem := Element.isItemOf_item? he
  have hother : Element.isItemOf key.element list.element = false := by
    by_contra h
    exact hne (Element.template_unique hitem (by simpa using h))
  refine ⟨ht.1.trans (makeItem ht.1.hasList (fun hl => ?_) hk hitem (hki.trans hinst) hother),
    ListRegion.id_template_makeItem ht.1.hasList.rooted.toLinked ht.2⟩
  rw [ht.2 hl, ← hinst]

end

end SparesList

/-! ## A list of its own -/

namespace ShowsList

section

variable {key : NodeKey} {placeholder item : String}

theorem fresh (h : s.ShowsList list parent shown) (hs : s.Rooted) (hkey : list.item? shown.length = some key) {k : Slot}
    (hk : (s.node k).live) : (s.node k).id ≠ some key.text := fun hid => by
  obtain ⟨he, hinst⟩ := NodeKey.item?_eq_some hkey
  have hi : s.itemAt list k := itemAt_iff.2 ⟨key.element, Element.isItemOf_item? he, by rw [hid, ← hinst]⟩
  have hmem : k ∈ s.itemsOf list parent := mem_itemsOf.2 ⟨(hs.toLinked.parent (h.only hk hi)).2, hi⟩
  have hids := List.mem_map_of_mem (f := fun h => (s.node h).id) hmem
  rw [h.ids, hid] at hids
  obtain ⟨i, hi, hik⟩ := List.mem_map.1 hids
  obtain ⟨key', hkey', ht⟩ := Option.map_eq_some_iff.1 hik
  have := NodeKey.item?_text_inj hkey' hkey ht
  have := List.mem_range.1 hi
  omega

/-- **The next item of the list stands at the end.** -/
theorem makeNext (h : s.ShowsList list parent shown) (hs : s.HasList list template parent bound texts)
    (hkey : list.item? shown.length = some key) :
    (ListRegion.makeItem s template key placeholder item).ShowsList list parent
      (shown ++ [Text.replaceInFirst placeholder item texts]) := by
  have hlink := hs.rooted.toLinked
  have hm := makesItem key placeholder item hlink hs.live
  have hrooted := hs.rooted.makeItem key placeholder item hs.live
  have htexts := texts_makeItem key placeholder item hs.rooted hs.live
  obtain ⟨he, hinst⟩ := NodeKey.item?_eq_some hkey
  have hcases : ∀ {k}, ((ListRegion.makeItem s template key placeholder item).node k).live →
      (ListRegion.makeItem s template key placeholder item).itemAt list k →
      (s.node k).live ∧ s.itemAt list k ∨
        k = (s.copy template (s.node template).parent).1 ∧ Element.isItemOf key.element list.element :=
    fun hk hi => hs.item_makeItem hs.live hs.id hs.isTemplate hinst hk hi
  have hsame : ∀ k ∈ s.itemsOf list parent, Same s (ListRegion.makeItem s template key placeholder item) k :=
    fun k hk => by
      obtain ⟨hc, hi⟩ := mem_itemsOf.1 hk
      refine same_makeItem hlink (hlink.child hc).2.1 (fun _ hp => hs.not_inside_item hi ?_ hp) key placeholder item
      rw [hs.id]
      exact Option.some_ne_none _
  have hitems : (ListRegion.makeItem s template key placeholder item).itemsOf list parent = _ :=
    itemsOf_sprouts hlink hm.toSprouts (hlink.parent_live hs.under)
  generalize ListRegion.makeItem s template key placeholder item = t at hm hrooted htexts hcases hsame hitems ⊢
  generalize (s.copy template (s.node template).parent).1 = h' at hm htexts hcases hitems
  have htop : t.itemAt list h' :=
    itemAt_iff.2 ⟨key.element, Element.isItemOf_item? he, by rw [hm.id_top, ← hinst]⟩
  rw [if_pos hs.under, List.filter_singleton, htop] at hitems
  exact {
    only := fun hk hi => by
      rcases hcases hk hi with ⟨hkl, hi⟩ | ⟨rfl, -⟩
      · exact (hm.parent_eq hkl).trans (h.only hkl hi)
      · exact hm.top.trans hs.under
    ids := by
      rw [hitems, List.map_append, List.length_append, List.length_singleton, List.range_succ, List.map_append, ← h.ids]
      congr 1
      · refine List.map_congr_left fun k hk => ?_
        rw [hsame k hk k (.refl k)]
      · simp only [cond_true, List.map_cons, List.map_nil, hm.id_top, hkey, Option.map_some]
    texts := by
      rw [hitems, List.map_append]
      congr 1
      · refine Eq.trans (List.map_congr_left fun k hk => ?_) h.texts
        exact (hsame k hk).texts hs.rooted hrooted (hlink.child (mem_itemsOf.1 hk).1).2.1
      · simp only [cond_true, List.map_cons, List.map_nil, htexts, hs.texts] }

end

end ShowsList

namespace HasList

theorem destroyAll (hs : s.HasList list template parent bound texts) (keys : List NodeKey)
    (hkeys : ∀ key ∈ keys, key.instanceId = list.instanceId ∧ Element.isItem key.element) :
    (ListRegion.destroyAll s keys).1.HasList list template parent bound texts :=
  ListRegion.destroyAll_induction (I := HasList list template parent bound texts) keys s
    (fun t n key hk ht hl => by
      obtain ⟨hinst, he⟩ := hkeys key hk
      obtain ⟨hn, hid⟩ := ListRegion.locate_live hl
      refine ht.remove hn ?_ he
      rw [hid, ← hinst]) hs

/-- **When all items of the list are destroyed, it shows nothing.** -/
theorem showsList_destroyAll (hs : s.HasList list template parent bound texts) (keys : List NodeKey)
    (hall : ∀ {h}, (s.node h).live → s.itemAt list h → ∃ key ∈ keys, (s.node h).id = some key.text) :
    (ListRegion.destroyAll s keys).1.ShowsList list parent [] := by
  have hlink := hs.rooted.toLinked
  have hnone : ∀ {h}, ((ListRegion.destroyAll s keys).1.node h).live →
      (ListRegion.destroyAll s keys).1.itemAt list h = false := fun {h} hl => by
    by_contra hi
    obtain ⟨hsl, hdoom⟩ := (ListRegion.live_destroyAll_iff keys hlink h).1 hl
    rw [itemAt_congr (Node.id_eq (ListRegion.own_destroyAll keys hl).2.1)] at hi
    have hi' : s.itemAt list h := by simpa using hi
    obtain ⟨key, hkey, hid⟩ := hall hsl hi'
    exact hdoom (ListRegion.doomed_of_unique keys hlink hkey hsl hid fun m hm hmid =>
      (hs.item_unique hsl hm hi' (hid.trans hmid.symm)).symm)
  have hitems : (ListRegion.destroyAll s keys).1.itemsOf list parent = [] := by
    refine List.filter_eq_nil_iff.2 fun k hk => ?_
    rw [hnone ((ListRegion.linked_destroyAll hlink keys).child hk).2.1]
    exact Bool.false_ne_true
  exact {
    only := fun hl hi => by
      rw [hnone hl] at hi
      cases hi
    ids := by
      rw [hitems]
      rfl
    texts := by rw [hitems, List.map_nil] }

/-- **When items are made, the list shows them in order.** -/
theorem showsList_makeItems (placeholder : String) (hs : s.HasList list template parent bound texts)
    (h : s.ShowsList list parent []) (items : List String) :
    (ListRegion.makeItems s template list placeholder 0 items).1.HasList list template parent bound texts ∧
      (ListRegion.makeItems s template list placeholder 0 items).1.ShowsList list parent
        (items.map fun item => Text.replaceInFirst placeholder item texts) := by
  have hloop := ListRegion.makeItems_induction (I := fun j (t : Surface) => t.HasList list template parent bound texts ∧
      t.ShowsList list parent ((items.take j).map fun item => Text.replaceInFirst placeholder item texts))
    hs.isTemplate template placeholder items 0 s (fun t j item key hitem hkey ht => ?_) ⟨hs, h⟩
  · rwa [Nat.zero_add, List.take_length] at hloop
  · rw [Nat.zero_add] at hkey ht ⊢
    obtain ⟨htl, hts⟩ := ht
    have hj : j < items.length := (List.getElem?_eq_some_iff.1 hitem).1
    obtain ⟨he, hinst⟩ := NodeKey.item?_eq_some hkey
    have hlen : list.item? ((items.take j).map fun item => Text.replaceInFirst placeholder item texts).length =
        some key := by
      rw [List.length_map, List.length_take, Nat.min_eq_left (Nat.le_of_lt hj)]
      exact hkey
    rw [List.take_add_one, hitem, Option.toList_some, List.map_append, List.map_singleton]
    refine ⟨htl.makeItem_live htl.live htl.id htl.isTemplate (Element.isItemOf_item? he) hinst fun _ k hk => ?_,
      hts.makeNext htl hlen⟩
    exact hts.fresh htl.rooted hlen hk

end HasList

end

end Surface
end BoundPage
