import BoundPage.ListRegion
import BoundPage.Proofs.Keys
import BoundPage.Proofs.Surface.Mounting
import BoundPage.Proofs.Surface.Styles
import BoundPage.Surface.Target
/-!
# Items

An item is a copy of its template that is dressed: it gets its data-id, is shown, and holds the item's text in the place
of the placeholder.  All of this happens below the copy, so whatever was there before stays as it was (`MakesItem`).  A
template that has been removed is copied to a removed node among the roots (`makeItem_of_dead`).
-/
namespace BoundPage

/-- The texts with the first occurrence of a piece in any of them replaced. -/
def Text.replaceInFirst (piece replacement : String) : List String → List String
  | [] => []
  | text :: texts =>
    match replaceFirst? piece replacement text with
    | some replaced => replaced :: texts
    | none => text :: replaceInFirst piece replacement texts

namespace Surface
open RenderTarget

/-- The texts of a node and of all nodes below it, in document order. -/
def texts (s : Surface) (h : Slot) : List String := (s.subtree h).map fun k => (s.node k).text

/-! ## Dressing a node -/

/-- The node has a data-id and is shown. -/
def shownAs (s : Surface) (h : Slot) (id : String) : Surface :=
  setStyle (s.modify h fun n => { n with id := some id }) h "display" none false

/-- What is done to the copy of a template. -/
def dress (s : Surface) (h : Slot) (id placeholder item : String) : Surface :=
  (s.shownAs h id).substitute h placeholder item

theorem makeItem_eq (s : Surface) (template : Slot) (key : NodeKey) (placeholder item : String) :
    ListRegion.makeItem s template key placeholder item =
      (s.copy template (s.node template).parent).2.dress (s.copy template (s.node template).parent).1 key.text
        placeholder item := by
  unfold ListRegion.makeItem
  rfl

section

variable (s : Surface) (h : Slot) (id placeholder item : String)

theorem sameTree_shownAs : SameTree s (s.shownAs h id) := by
  have hid : SameTree s (s.modify h fun n => { n with id := some id }) := sameTree_modify s h fun _ => ⟨rfl, rfl, rfl⟩
  exact hid.trans (sameTree_setStyle _ _ _ _ _)

theorem node_shownAs (k : Slot) : (s.shownAs h id).node k =
    { s.node k with
      id := if k = h ∧ h < s.size then some id else (s.node k).id
      styles := ((s.shownAs h id).node k).styles } := by
  rw [shownAs, (restyled_setStyle _ h "display" none false).node k, node_modify]
  split <;> rfl

theorem sameTree_dress : SameTree s (s.dress h id placeholder item) :=
  (sameTree_shownAs s h id).trans (sameTree_substitute _ h placeholder item)

/-- Dressing changes texts, styles and one data-id. -/
theorem node_dress (k : Slot) : (s.dress h id placeholder item).node k =
    { s.node k with
      id := if k = h ∧ h < s.size then some id else (s.node k).id
      text := ((s.dress h id placeholder item).node k).text
      styles := ((s.dress h id placeholder item).node k).styles } := by
  unfold dress
  rcases substitute_eq (s.shownAs h id) h placeholder item with he | ⟨j, text, -, -, he⟩
  · rw [he, node_shownAs]
  · rw [he, node_modify, node_shownAs]
    split <;> rfl

/-- **Dressing changes nothing outside the node.** -/
theorem node_dress_of_not_below {k : Slot} (hk : ¬ s.Below h k) :
    (s.dress h id placeholder item).node k = s.node k := by
  have hne : k ≠ h := by
    rintro rfl
    exact hk (.refl k)
  have hshown : (s.shownAs h id).node k = s.node k := by
    rw [shownAs, setStyle, node_modify_of_ne _ _ hne, node_modify_of_ne _ _ hne]
  unfold dress
  rcases substitute_eq (s.shownAs h id) h placeholder item with he | ⟨j, text, hj, -, he⟩
  · rw [he, hshown]
  · have hjk : k ≠ j := by
      rintro rfl
      exact hk ((sameTree_shownAs s h id).below_iff.1 (below_of_mem_walk hj))
    rw [he, node_modify_of_ne _ _ hjk, hshown]

end

/-- Replacing in the first of some nodes that has the placeholder. -/
theorem texts_findSome? (s : Surface) (placeholder item : String) : ∀ ks : List Slot, ks.Nodup →
    (∀ k ∈ ks, k < s.size) →
    (ks.map fun k => (((ks.findSome? fun j => (Text.replaceFirst? placeholder item (s.node j).text).map fun text =>
        s.modify j fun n => { n with text }).getD s).node k).text) =
      Text.replaceInFirst placeholder item (ks.map fun k => (s.node k).text)
  | [], _, _ => rfl
  | k :: ks, hn, hlt => by
    obtain ⟨hk, hn⟩ := List.nodup_cons.1 hn
    rw [List.findSome?_cons, List.map_cons, List.map_cons, Text.replaceInFirst]
    cases hr : Text.replaceFirst? placeholder item (s.node k).text with
    | some replaced =>
      simp only [Option.map_some, Option.getD_some]
      rw [node_modify_self s _ (hlt k List.mem_cons_self)]
      congr 1
      exact List.map_congr_left fun j hj => by
        rw [node_modify_of_ne s _ (by rintro rfl; exact hk hj)]
    | none =>
      simp only [Option.map_none]
      rw [texts_findSome? s placeholder item ks hn fun j hj => hlt j (List.mem_cons_of_mem k hj)]
      congr 1
      cases hf : ks.findSome? fun j => (Text.replaceFirst? placeholder item (s.node j).text).map fun text =>
          s.modify j fun n => { n with text } with
      | none => rfl
      | some u =>
        obtain ⟨j, hj, hu⟩ := List.exists_of_findSome?_eq_some hf
        obtain ⟨text, -, rfl⟩ := Option.map_eq_some_iff.1 hu
        rw [Option.getD_some, node_modify_of_ne s _ (by rintro rfl; exact hk hj)]

/-- **Substitution replaces the first occurrence in document order.** -/
theorem texts_substitute {s : Surface} (hs : s.Rooted) {h : Slot} (hl : (s.node h).live) (placeholder item : String) :
    (s.substitute h placeholder item).texts h = Text.replaceInFirst placeholder item (s.texts h) := by
  have ht := sameTree_substitute s h placeholder item
  have hsub : (s.substitute h placeholder item).subtree h = s.subtree h := by
    unfold subtree
    rw [ht.size]
    exact walk_congr _ _ fun k _ => ht.children k
  unfold texts
  rw [hsub]
  exact texts_findSome? s placeholder item (s.subtree h) (hs.nodup_subtree hl) fun k hk =>
    lt_size_of_live s (hs.live_of_below ((hs.mem_subtree hl).1 hk) hl)

theorem texts_dress {s : Surface} (hs : s.Rooted) {h : Slot} (hl : (s.node h).live) (id placeholder item : String) :
    (s.dress h id placeholder item).texts h = Text.replaceInFirst placeholder item (s.texts h) := by
  have ht := sameTree_shownAs s h id
  have hlive : ((s.shownAs h id).node h).live := by rw [ht.live]; exact hl
  have htexts : (s.shownAs h id).texts h = s.texts h := by
    have hsub : (s.shownAs h id).subtree h = s.subtree h := by
      unfold subtree
      rw [ht.size]
      exact walk_congr _ _ fun k _ => ht.children k
    unfold texts
    rw [hsub]
    exact List.map_congr_left fun k _ => by rw [node_shownAs]
  unfold dress
  rw [texts_substitute (hs.sameTree ht) hlive, htexts]

/-! ## Making an item -/

/-- **An item has been made from a live template.** -/
structure MakesItem (s : Surface) (template : Slot) (id : String) (h : Slot) (t : Surface) : Prop
    extends Sprouts (s.node template).parent h s t where
  linked : t.Linked
  live_top : (t.node h).live
  id_top : (t.node h).id = some id
  external_top : (t.node h).externalId = (s.node template).externalId
  new_of_below : ∀ {k}, t.Below h k → (s.node k).live = false
  below_of_new : ∀ {k}, (t.node k).live → (s.node k).live = false → t.Below h k
  /-- A node has its attributes, and below the top its data-id, from one that was there before. -/
  own_old : ∀ {k}, (t.node k).live → ∃ j, (s.node j).live ∧ (t.node k).attributes = (s.node j).attributes ∧
    (k ≠ h → (t.node k).id = (s.node j).id)

/-- Nothing of an item is above its top: the parent of the top is an old node. -/
theorem MakesItem.eq_top {s t : Surface} {template h : Slot} {id : String} (hm : s.MakesItem template id h t)
    (hs : s.Linked) {a : Slot} (ha : t.Below h a) (hb : t.Below a h) : a = h := by
  by_contra hah
  cases hp : (s.node template).parent with
  | none =>
    cases hb with
    | refl => exact hah rfl
    | tail _ hab =>
      have := (hm.linked.child hab).2.2
      rw [hm.top, hp] at this
      cases this
  | some p =>
    have hbp := hm.linked.below_parent hb (Ne.symm hah) (hm.top.trans hp)
    have := hm.new_of_below (ha.trans hbp)
    rw [hs.parent_live hp] at this
    cases this

section

variable {s : Surface} {template : Slot} (key : NodeKey) (placeholder item : String)

theorem copies_copy (hs : s.Linked) (hl : (s.node template).live) :
    Copies s template (s.node template).parent (s.copy template (s.node template).parent).1
      (s.copy template (s.node template).parent).2 :=
  copies_copyWithin _ s template _ hs hl fun _ hp => hs.parent_live hp

theorem makesItem (hs : s.Linked) (hl : (s.node template).live) :
    MakesItem s template key.text (s.copy template (s.node template).parent).1
      (ListRegion.makeItem s template key placeholder item) := by
  rw [makeItem_eq]
  have hc := copies_copy hs hl
  generalize (s.copy template (s.node template).parent).1 = h at hc ⊢
  generalize (s.copy template (s.node template).parent).2 = u at hc ⊢
  have ht := sameTree_dress u h key.text placeholder item
  have hnode := node_dress u h key.text placeholder item
  have htop : (u.node h).live := hc.live_top hl
  have hold : ∀ k, (s.node k).live → (u.dress h key.text placeholder item).node k = u.node k := fun k hk =>
    node_dress_of_not_below u h key.text placeholder item fun hb => by
      rw [hc.new_of_below hb] at hk
      cases hk
  exact {
    size_le := by rw [ht.size]; exact hc.size_le
    fresh := hc.fresh
    node := fun k hk => by rw [hold k hk]; exact hc.node k hk
    roots := by rw [ht.roots]; exact hc.roots
    free := by rw [ht.free]; exact hc.free
    top := by rw [ht.parent]; exact hc.top
    linked := ht.linked hc.linked
    live_top := by rw [ht.live]; exact htop
    id_top := by rw [hnode, if_pos ⟨rfl, lt_size_of_live u htop⟩]
    external_top := by
      have he := Node.externalId_eq hc.own_top
      rw [hnode]
      exact he
    new_of_below := fun hb => hc.new_of_below (ht.below_iff.1 hb)
    below_of_new := fun hk hd => by
      rw [ht.live] at hk
      exact ht.below_iff.2 (hc.below_of_new hk hd)
    own_old := fun {k} hk => by
      rw [ht.live] at hk
      obtain ⟨j, hj, he⟩ := hc.own_old hk
      refine ⟨j, hj, ?_, fun hne => ?_⟩
      · have ha := Node.attributes_eq he
        rw [hnode]
        exact ha
      · have hi := Node.id_eq he
        rw [hnode, if_neg fun h => hne h.1]
        exact hi }

/-- Below the top of an item, a node has its data-id from one strictly below the template. -/
theorem id_makeItem (hs : s.Linked) (hl : (s.node template).live)
    (hnot : ∀ p, (s.node template).parent = some p → ¬ s.Below template p) {k : Slot}
    (hb : (ListRegion.makeItem s template key placeholder item).Below (s.copy template (s.node template).parent).1 k)
    (hk : k ≠ (s.copy template (s.node template).parent).1) :
    ∃ c j, s.Child template c ∧ s.Below c j ∧
      ((ListRegion.makeItem s template key placeholder item).node k).id = (s.node j).id := by
  have hf : Faithful s template s.size (s.copy template (s.node template).parent).1
      (s.copy template (s.node template).parent).2 :=
    faithful_copyWithin s.size s template _ hs hl (fun _ hp => hs.parent_live hp) hnot
  rw [makeItem_eq] at hb ⊢
  generalize (s.copy template (s.node template).parent).1 = h at hf hb hk ⊢
  generalize (s.copy template (s.node template).parent).2 = u at hf hb hk ⊢
  obtain ⟨c, j, hc, hj, ho⟩ := hf.origin ((sameTree_dress u h _ _ _).below_iff.1 hb) hk
  refine ⟨c, j, hc, hj, ?_⟩
  have hi := Node.id_eq ho
  rw [node_dress, if_neg fun h => hk h.1]
  exact hi

theorem Rooted.makeItem (hs : s.Rooted) (hl : (s.node template).live) :
    (ListRegion.makeItem s template key placeholder item).Rooted := by
  have hr := (copies_copy hs.toLinked hl).rooted hs hl fun _ hp => hs.toLinked.parent_live hp
  rw [makeItem_eq]
  exact hr.sameTree (sameTree_dress _ _ _ _ _)

theorem Forest.makeItem (hs : s.Forest) (hl : (s.node template).live) :
    (ListRegion.makeItem s template key placeholder item).Forest := by
  have hf := (copies_copy hs.toLinked hl).forest hs hl fun _ hp => hs.toLinked.parent_live hp
  rw [makeItem_eq]
  exact (sameTree_dress _ _ _ _ _).forest hf

theorem Rooted.not_below_parent (hs : s.Rooted) {k p : Slot} (hp : (s.node k).parent = some p) : ¬ s.Below k p := by
  obtain ⟨n, hn⟩ := hs.level (hs.toLinked.parent_live hp)
  exact hn.not_below_of_child hs.toLinked (hs.parent hp).2

/-- **The item has the texts of its template, with the placeholder replaced once.** -/
theorem texts_makeItem (hs : s.Rooted) (hl : (s.node template).live) :
    (ListRegion.makeItem s template key placeholder item).texts (s.copy template (s.node template).parent).1 =
      Text.replaceInFirst placeholder item (s.texts template) := by
  rw [makeItem_eq]
  have hc := copies_copy hs.toLinked hl
  have hf : Faithful s template s.size (s.copy template (s.node template).parent).1
      (s.copy template (s.node template).parent).2 :=
    faithful_copyWithin s.size s template _ hs.toLinked hl (fun _ hp => hs.toLinked.parent_live hp)
      fun _ hp => hs.not_below_parent hp
  have hr := hc.rooted hs hl fun _ hp => hs.toLinked.parent_live hp
  rw [texts_dress hr (hc.live_top hl)]
  congr 1
  have hnodes := congrArg (fun m => (Markup.nodes m).map Markup.text) (hc.markupOf_eq hs hl hf)
  simp only [hr.nodes_markupOf (hc.live_top hl), hs.nodes_markupOf hl, List.map_map] at hnodes
  exact hnodes

/-- **A removed node has been added to the roots**, and nothing else has happened. -/
structure AddsDead (s : Surface) (h : Slot) (t : Surface) : Prop where
  linked : t.Linked
  live : ∀ k, (t.node k).live = (s.node k).live
  node : ∀ {k}, (s.node k).live → t.node k = s.node k
  roots : t.roots = s.roots ++ [h]
  dead : (t.node h).live = false

theorem makeItem_of_dead (hs : s.Linked) (hd : (s.node template).live = false) :
    ∃ h, AddsDead s h (ListRegion.makeItem s template key placeholder item) := by
  have hcopy : s.copy template (s.node template).parent = s.sprout (s.bare template) none := by
    rw [hs.dead_parent hd]
    exact copyWithin_of_dead hs hd _
  rw [makeItem_eq, hcopy]
  have hno : ∀ p, (none : Option Slot) = some p → (s.node p).live := fun _ h => by cases h
  have hsp := sprouts_sprout (n := s.bare template) hs.toFreeSlots hno
  have hlive := live_sprout_of_dead hs.toFreeSlots (n := s.bare template) hd
  have hlink := hs.sprout (n := s.bare template) hno rfl (.inl rfl)
  generalize (s.sprout (s.bare template) none).1 = h at hsp ⊢
  generalize (s.sprout (s.bare template) none).2 = u at hsp hlive hlink ⊢
  have ht := sameTree_dress u h key.text placeholder item
  refine ⟨h, ht.linked hlink, fun k => ?_, fun {k} hk => ?_, ?_, ?_⟩
  · rw [ht.live, hlive]
  · rw [node_dress_of_not_below, hsp.node_eq hk (by simp)]
    intro hb
    rcases hb.cases_head with rfl | ⟨c, hc, -⟩
    · rw [hsp.fresh] at hk
      cases hk
    · have := (hlink.child hc).1
      rw [hlive, hsp.fresh] at this
      cases this
  · rw [ht.roots, hsp.roots, if_pos rfl]
  · rw [ht.live, hlive, hsp.fresh]

end

end Surface
end BoundPage
