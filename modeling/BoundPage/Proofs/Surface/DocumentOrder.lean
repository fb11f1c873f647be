import Mathlib.Data.List.Flatten
import BoundPage.Proofs.Surface.Accounts
import BoundPage.Proofs.Surface.Orderly
import BoundPage.Proofs.Surface.Regions
/-!
# Document order

The slots of a page are numbered in document order when it has been mounted (`ascending_ofMarkup`).  A slot that is used
again may be anywhere in the document; but a node that has been neither made anew nor moved still stands in its order,
as every change takes nodes out or puts nodes behind those that are there (`StandsStill`).
-/
namespace BoundPage
namespace Surface

variable {s t u : Surface} {T : List Slot}

/-- The live ones among some nodes that are reached from the roots, in document order. -/
def standing (s : Surface) (T : List Slot) : List Slot := s.reached.filter fun n => n ∈ T ∧ (s.node n).live

/-! ## Walks -/

theorem walk_sublist_succ (s : Surface) : ∀ (d : Nat) (h : Slot), (s.walk d h).Sublist (s.walk (d + 1) h)
  | 0, _ => List.nil_sublist _
  | d + 1, h => by
    rw [walk_succ, walk_succ s (d + 1)]
    exact (List.Sublist.flatMap_right _ fun c _ => walk_sublist_succ s d c).cons_cons h

theorem walk_sublist (s : Surface) (h : Slot) {d e : Nat} (hde : d ≤ e) : (s.walk d h).Sublist (s.walk e h) := by
  induction hde with
  | refl => exact List.Sublist.refl _
  | step _ ih => exact ih.trans (walk_sublist_succ s _ h)

/-- No walk from a root visits more than its tree. -/
theorem Linked.walk_sublist_subtree (hs : s.Linked) {r : Slot} (hr : r ∈ s.roots) (d : Nat) :
    (s.walk d r).Sublist (s.subtree r) := by
  obtain ⟨hp, -, hlt⟩ := hs.top hr
  have hpos : 0 < s.size := Nat.lt_of_le_of_lt (Nat.zero_le r) hlt
  have hshallow : ∃ e < s.size, s.Shallow e r := by
    cases hl : (s.node r).live with
    | true => exact ⟨s.size - 1, by omega, Level.shallow hs _ (show s.Level 0 r from ⟨hl, hp⟩) (by omega)⟩
    | false => exact ⟨0, hpos, hs.dead_children hl⟩
  obtain ⟨e, he, hshallow⟩ := hshallow
  have heq : s.walk (max d s.size) r = s.subtree r := hshallow.walk_eq _ _ (by omega) he
  exact heq ▸ s.walk_sublist r (Nat.le_max_left d s.size)

/-! ## Standing still -/

/-- A list has lost entries, and what is behind the others has none of some nodes below it. -/
def Trims (T : List Slot) (t : Surface) (old new : List Slot) : Prop :=
  ∃ kept added, new = kept ++ added ∧ kept.Sublist old ∧ ∀ c ∈ added, ∀ n ∈ T, (t.node n).live → ¬ t.Below c n

theorem Trims.of_sublist {old new : List Slot} (h : new.Sublist old) : Trims T t old new :=
  ⟨new, [], (List.append_nil new).symm, h, nofun⟩

/-- **Some nodes stand still**: as far as they are left, all that is above them has only lost children, or got further
ones at the end with none of them inside. -/
structure StandsStill (T : List Slot) (s t : Surface) : Prop where
  live : ∀ n ∈ T, (t.node n).live → (s.node n).live
  roots : Trims T t s.roots t.roots
  children : ∀ k, ∀ n ∈ T, (t.node n).live → t.Below k n → Trims T t (s.node k).children (t.node k).children

theorem Trims.flatMap {old new : List Slot} {f g : Slot → List Slot} (h : Trims T t old new)
    (hfg : ∀ c, (f c).Sublist (g c)) (hnone : ∀ c, (∀ n ∈ T, (t.node n).live → ¬ t.Below c n) → f c = []) :
    (new.flatMap f).Sublist (old.flatMap g) := by
  obtain ⟨kept, added, rfl, hkept, hadded⟩ := h
  have hnil : added.flatMap f = [] := List.flatMap_eq_nil_iff.2 fun c hc => hnone c (hadded c hc)
  rw [List.flatMap_append, hnil, List.append_nil]
  exact (List.Sublist.flatMap_right kept fun c _ => hfg c).trans (hkept.flatMap g)

/-- No walk comes to the nodes where none of them is below. -/
theorem filter_walk_eq_nil {h : Slot} (hnone : ∀ n ∈ T, (t.node n).live → ¬ t.Below h n) (d : Nat) :
    ((t.walk d h).filter fun n => n ∈ T ∧ (t.node n).live) = [] := by
  refine List.filter_eq_nil_iff.2 fun n hn hT => ?_
  rw [decide_eq_true_eq] at hT
  exact hnone n hT.1 hT.2 (below_of_mem_walk hn)

theorem StandsStill.filter_walk (h : StandsStill T s t) : ∀ (d : Nat) (k : Slot),
    ((t.walk d k).filter fun n => n ∈ T ∧ (t.node n).live).Sublist
      ((s.walk d k).filter fun n => n ∈ T ∧ (s.node n).live)
  | 0, _ => List.Sublist.refl _
  | d + 1, k => by
    by_cases hnone : ∀ n ∈ T, (t.node n).live → ¬ t.Below k n
    · rw [filter_walk_eq_nil hnone]
      exact List.nil_sublist _
    · push Not at hnone
      obtain ⟨n, hn, hl, hb⟩ := hnone
      have hrest := (h.children k n hn hl hb).flatMap (h.filter_walk d) fun c hc => filter_walk_eq_nil hc d
      rw [walk_succ, walk_succ, List.filter_cons, List.filter_cons, List.filter_flatMap, List.filter_flatMap]
      by_cases hk : k ∈ T ∧ (t.node k).live
      · rw [if_pos (by simpa using hk), if_pos (by simpa using ⟨hk.1, h.live k hk.1 hk.2⟩)]
        exact hrest.cons_cons k
      · rw [if_neg (by simpa using hk)]
        split
        · exact hrest.cons k
        · exact hrest

/-- **Nodes that stand still keep their order in the document**; some of them may go. -/
theorem StandsStill.standing (hs : s.Linked) (h : StandsStill T s t) : (t.standing T).Sublist (s.standing T) := by
  unfold Surface.standing reached
  rw [List.filter_flatMap, List.filter_flatMap]
  refine (h.roots.flatMap (h.filter_walk t.size) fun c hc => filter_walk_eq_nil hc t.size).trans ?_
  exact List.Sublist.flatMap_right _ fun r hr => (hs.walk_sublist_subtree hr t.size).filter _

/-- The slots of some nodes are numbered in document order, as far as they stand in the document. -/
def Ascending (T : List Slot) (s : Surface) : Prop := (s.standing T).Pairwise (· < ·)

theorem StandsStill.ascending (h : StandsStill T s t) (hs : s.Linked) (ha : Ascending T s) : Ascending T t :=
  List.Pairwise.sublist (h.standing hs) ha

/-! ## Nodes go -/

/-- Nodes have only been taken out. -/
structure Prunes (s t : Surface) : Prop where
  live : ∀ k, (t.node k).live → (s.node k).live
  roots : t.roots.Sublist s.roots
  children : ∀ k, (t.node k).children.Sublist (s.node k).children

namespace Prunes

theorem trans (h : Prunes s t) (h' : Prunes t u) : Prunes s u where
  live k hk := h.live k (h'.live k hk)
  roots := h'.roots.trans h.roots
  children k := (h'.children k).trans (h.children k)

theorem of_sameTree (h : SameTree s t) : Prunes s t where
  live k hk := h.live k ▸ hk
  roots := h.roots ▸ List.Sublist.refl _
  children k := h.children k ▸ List.Sublist.refl _

theorem of_frees {cs : List Slot} (h : Frees s cs t) : Prunes s t where
  live _ := h.live_of_live
  roots := h.roots ▸ List.Sublist.refl _
  children k := by
    rcases h.node k with he | ⟨-, he⟩
    · exact he ▸ List.Sublist.refl _
    · exact he ▸ List.nil_sublist _

theorem setText (s : Surface) (n : Slot) (text : String) : Prunes s (s.setText n text) := by
  have hchildless : Prunes s (s.childless n) := by
    refine ⟨fun k hk => ?_, List.Sublist.refl _, fun k => ?_⟩
    · rwa [node_childless] at hk
    · rw [node_childless]
      split
      · exact List.nil_sublist _
      · exact List.Sublist.refl _
  exact (hchildless.trans (of_frees (frees_setText s n))).trans (of_sameTree (sameTree_text _ n text))

theorem remove (s : Surface) (n : Slot) : Prunes s (s.remove n) := by
  refine trans ⟨fun k hk => ?_, ?_, fun k => ?_⟩ (of_frees (frees_remove s n))
  · rwa [node_detach] at hk
  · rw [roots_detach]
    split
    · exact List.filter_sublist
    · exact List.Sublist.refl _
  · rw [node_detach]
    dsimp only
    split
    · exact List.filter_sublist
    · exact List.Sublist.refl _

theorem destroyAll (s : Surface) (keys : List NodeKey) : Prunes s (ListRegion.destroyAll s keys).1 :=
  ListRegion.destroyAll_induction keys s (fun t n _ _ h _ => h.trans (remove t n)) (of_sameTree (.refl s))

theorem standsStill (h : Prunes s t) (T : List Slot) : StandsStill T s t where
  live n _ := h.live n
  roots := .of_sublist h.roots
  children k _ _ _ _ := .of_sublist (h.children k)

end Prunes

/-! ## Nodes come -/

theorem MakesItem.standsStill {template h : Slot} {id : String} (hs : s.Linked) (hm : MakesItem s template id h t)
    (hlive : ∀ n ∈ T, (t.node n).live → (s.node n).live) : StandsStill T s t := by
  -- None of the nodes is new, so none is in the item.
  have hnot : ∀ c ∈ [h], ∀ n ∈ T, (t.node n).live → ¬ t.Below c n := fun c hc n hn hl hb => by
    have hdead := hm.new_of_below (List.mem_singleton.1 hc ▸ hb)
    rw [hlive n hn hl] at hdead
    cases hdead
  refine ⟨hlive, ?_, fun k n hn hl hb => ?_⟩
  · rw [hm.roots]
    split
    · exact ⟨_, _, rfl, List.Sublist.refl _, hnot⟩
    · exact .of_sublist (List.Sublist.refl _)
  · rw [hm.node k (hm.below_old hs hm.linked hb (hlive n hn hl)).1]
    dsimp only
    split
    · exact ⟨_, _, rfl, List.Sublist.refl _, hnot⟩
    · exact .of_sublist (List.Sublist.refl _)

theorem AddsDead.standsStill {h : Slot} (ha : AddsDead s h t) (T : List Slot) : StandsStill T s t where
  live n _ hl := ha.live n ▸ hl
  roots := by
    refine ⟨_, _, ha.roots, List.Sublist.refl _, fun c hc n _ hl hb => ?_⟩
    have habove := ha.linked.live_of_above hb hl
    rw [List.mem_singleton.1 hc, ha.dead] at habove
    cases habove
  children k n _ hl hb := by
    have hk := ha.linked.live_of_above hb hl
    rw [ha.live] at hk
    exact .of_sublist (ha.node hk ▸ List.Sublist.refl _)

/-- **What is below a node stays below it when it is moved.** -/
theorem below_of_below_append (hs : s.Linked) {p c k : Slot} (hp : (s.node p).live) (hc : (s.node c).live)
    (h : (s.append p c).Below c k) : s.Below c k := by
  induction h with
  | refl => exact .refl c
  | tail _ hab ih =>
    rcases (hs.child_append hp hc).1 hab with ⟨-, hab⟩ | ⟨-, rfl⟩
    · exact ih.tail hab
    · exact .refl _

theorem standsStill_append (hs : s.Linked) {p c : Slot} (hp : (s.node p).live) (hc : (s.node c).live)
    (hnot : ∀ n ∈ T, (s.node n).live → ¬ s.Below c n) : StandsStill T s (s.append p c) where
  live n _ hl := live_append hp hc n ▸ hl
  roots := by
    rw [Linked.roots_append]
    split
    · exact .of_sublist List.filter_sublist
    · exact .of_sublist (List.Sublist.refl _)
  children k n _ _ _ := by
    rw [Linked.node_append hp hc]
    refine ⟨_, _, rfl, ?_, fun d hd m hm hl hb => ?_⟩
    · split
      · exact List.filter_sublist
      · exact List.Sublist.refl _
    · split at hd
      · obtain rfl := List.mem_singleton.1 hd
        exact hnot m hm (live_append hp hc m ▸ hl) (below_of_below_append hs hp hc hb)
      · cases hd

/-! ## Lists -/

/-- A node that is there is still there when an item has been made. -/
theorem live_makeItem {template : Slot} (hs : s.Linked) (key : NodeKey) (placeholder item : String) {k : Slot}
    (hk : (s.node k).live) : ((ListRegion.makeItem s template key placeholder item).node k).live := by
  cases hl : (s.node template).live with
  | true => exact (makesItem key placeholder item hs hl).live hk
  | false =>
    obtain ⟨h, ha⟩ := makeItem_of_dead key placeholder item hs hl
    rwa [ha.live]

theorem standsStill_makeItem {template : Slot} (hs : s.Linked) (key : NodeKey) (placeholder item : String)
    (hlive : ∀ n ∈ T, ((ListRegion.makeItem s template key placeholder item).node n).live → (s.node n).live) :
    StandsStill T s (ListRegion.makeItem s template key placeholder item) := by
  cases hl : (s.node template).live with
  | true => exact (makesItem key placeholder item hs hl).standsStill hs hlive
  | false =>
    obtain ⟨h, ha⟩ := makeItem_of_dead key placeholder item hs hl
    exact ha.standsStill T

/-- **Items that are made leave the others in their order.** -/
theorem ascending_makeItems {template : Slot} {k : NodeKey} (hk : k.isTemplate) (hs : s.Linked) (placeholder : String)
    (items : List String) (i : Nat)
    (hlive : ∀ n ∈ T, ((ListRegion.makeItems s template k placeholder i items).1.node n).live → (s.node n).live)
    (ha : Ascending T s) : Ascending T (ListRegion.makeItems s template k placeholder i items).1 := by
  -- On the way, what is known of the end is a condition: nodes that are there stay there to the end.
  refine (ListRegion.makeItems_induction (I := fun _ (t : Surface) => t.Linked ∧
    (∀ n, (s.node n).live → (t.node n).live) ∧
    ((∀ n ∈ T, (t.node n).live → (s.node n).live) → Ascending T t)) hk template placeholder items i s
    (fun t j item key _ _ ⟨ht, hold, hasc⟩ => ?_) ⟨hs, fun _ h => h, fun _ => ha⟩).2.2 hlive
  refine ⟨ListRegion.linked_makeItem ht key item, fun n hn => live_makeItem ht key _ item (hold n hn), fun hnew => ?_⟩
  refine (standsStill_makeItem ht key placeholder item fun n hn hl => hold n (hnew n hn hl)).ascending ht
    (hasc fun n hn hl => hnew n hn (live_makeItem ht key _ item hl))

/-! ## Mounting -/

/-- **Trees have been added below a parent, or among the roots, and numbered in document order.** -/
structure Numbers (parent : Option Slot) (new : List Slot) (s t : Surface) : Prop where
  free : t.free = []
  size_le : s.size ≤ t.size
  children : ∀ k < s.size, (t.node k).children = (s.node k).children ++ if parent = some k then new else []
  roots : t.roots = s.roots ++ if parent = none then new else []
  /-- The trees are in the slots that are new. -/
  below : ∀ c ∈ new, ∀ k, t.Below c k → s.size ≤ k ∧ k < t.size
  ascending : ∀ d, (new.flatMap (t.walk d)).Pairwise (· < ·)

namespace Numbers

variable {parent : Option Slot} {h : Slot} {new new' : List Slot}

theorem nil (hfree : s.free = []) (parent : Option Slot) : Numbers parent [] s s where
  free := hfree
  size_le := Nat.le_refl _
  children k _ := by split <;> rw [List.append_nil]
  roots := by split <;> rw [List.append_nil]
  below := nofun
  ascending _ := List.Pairwise.nil

/-- A tree has been added, and others after it. -/
theorem cons (hparent : ∀ p, parent = some p → p < s.size) (h₁ : Numbers parent [h] s t) (h₂ : Numbers parent new t u) :
    Numbers parent (h :: new) s u := by
  -- The first tree is left as it is: its nodes are new, and the parent is not.
  have hsame : ∀ k, t.Below h k → (u.node k).children = (t.node k).children := fun k hk => by
    obtain ⟨hle, hlt⟩ := h₁.below h List.mem_cons_self k hk
    have hne : parent ≠ some k := fun hp => Nat.lt_irrefl _ (Nat.lt_of_lt_of_le (hparent k hp) hle)
    rw [h₂.children k hlt, if_neg hne, List.append_nil]
  have hwalk : ∀ d, u.walk d h = t.walk d h := fun d => walk_congr d h hsame
  refine ⟨h₂.free, Nat.le_trans h₁.size_le h₂.size_le, fun k hk => ?_, ?_, fun c hc k hb => ?_, fun d => ?_⟩
  · rw [h₂.children k (Nat.lt_of_lt_of_le hk h₁.size_le), h₁.children k hk]
    split <;> simp
  · rw [h₂.roots, h₁.roots]
    split <;> simp
  · rcases List.mem_cons.1 hc with rfl | hc
    · obtain ⟨hle, hlt⟩ := h₁.below c List.mem_cons_self k ((below_congr hsame).1 hb)
      exact ⟨hle, Nat.lt_of_lt_of_le hlt h₂.size_le⟩
    · obtain ⟨hle, hlt⟩ := h₂.below c hc k hb
      exact ⟨Nat.le_trans h₁.size_le hle, hlt⟩
  · rw [List.flatMap_cons, List.pairwise_append, hwalk]
    refine ⟨by simpa using h₁.ascending d, h₂.ascending d, fun a ha b hb => ?_⟩
    obtain ⟨c, hc, hb⟩ := List.mem_flatMap.1 hb
    exact Nat.lt_of_lt_of_le (h₁.below h List.mem_cons_self a (below_of_mem_walk ha)).2
      (h₂.below c hc b (below_of_mem_walk hb)).1

/-- A node has been added to a page without free slots, and trees below it. -/
theorem of_sprout (hs : s.FreeSlots) (hfree : s.free = []) (hp : ∀ p, parent = some p → (s.node p).live) {n : Node}
    (hn : n.children = []) (hnew : Numbers (some (s.sprout n parent).1) new (s.sprout n parent).2 u) :
    Numbers parent [(s.sprout n parent).1] s u := by
  have hsize : (s.sprout n parent).2.size = s.size + 1 := (size_sprout s n parent).trans (if_pos hfree)
  have hfst : (s.sprout n parent).1 = s.size := by
    show (s.place n).1 = s.size
    unfold place
    rw [hfree]
  have hroots := (sprouts_sprout (n := n) hs hp).roots
  have hnode := node_sprout (n := n) hs hp
  generalize (s.sprout n parent).1 = h at hnew hfst hroots hnode ⊢
  generalize (s.sprout n parent).2 = t at hnew hsize hroots hnode
  have hchildren : (u.node h).children = new := by
    rw [hnew.children h (by rw [hfst, hsize]; exact Nat.lt_succ_self _), if_pos rfl, hnode, if_pos rfl]
    exact (congrArg (· ++ new) hn).trans (List.nil_append new)
  have hbelow : ∀ c ∈ new, ∀ k, u.Below c k → s.size < k ∧ k < u.size := fun c hc k hb => by
    have := hnew.below c hc k hb
    rwa [hsize] at this
  have hle : s.size + 1 ≤ u.size := hsize ▸ hnew.size_le
  refine ⟨hnew.free, Nat.le_of_succ_le hle, fun k hk => ?_, ?_, fun c hc k hb => ?_, fun d => ?_⟩
  · have hne : k ≠ h := Nat.ne_of_lt (hfst.symm ▸ hk)
    have hne' : some h ≠ some k := fun he => hne (Option.some.inj he).symm
    rw [hnew.children k (hsize ▸ Nat.lt_succ_of_lt hk), if_neg hne', List.append_nil, hnode, if_neg hne]
    dsimp only
    split <;> simp
  · rw [hnew.roots, hroots]
    split <;> simp
  · obtain rfl := List.mem_singleton.1 hc
    rcases hb.cases_head with rfl | ⟨d, hd, hb⟩
    · exact ⟨Nat.le_of_eq hfst.symm, hfst ▸ hle⟩
    · unfold Child at hd
      rw [hchildren] at hd
      obtain ⟨hlt, hlt'⟩ := hbelow d hd k hb
      exact ⟨Nat.le_of_lt hlt, hlt'⟩
  · rw [List.flatMap_singleton]
    cases d with
    | zero => exact List.Pairwise.nil
    | succ d =>
      rw [walk_succ, hchildren, List.pairwise_cons]
      refine ⟨fun k hk => ?_, hnew.ascending d⟩
      obtain ⟨c, hc, hk⟩ := List.mem_flatMap.1 hk
      exact hfst ▸ (hbelow c hc k (below_of_mem_walk hk)).1

end Numbers

mutual

/-- **A description is mounted in document order.** -/
theorem Forest.numbers_mount {s : Surface} (hs : s.Forest) (hfree : s.free = []) {parent : Option Slot}
    (hp : ∀ p, parent = some p → (s.node p).live) : ∀ m : Markup,
      Numbers parent [(s.mount parent m).1] s (s.mount parent m).2
  | ⟨tag, id, externalId, text, attributes, styles, children⟩ => by
    let n : Node := .ofMarkup { tag, id, externalId, text, attributes, styles }
    have htop : ((s.sprout n parent).2.node (s.sprout n parent).1).live := live_sprout_self hs.toFreeSlots hp
    have hnone : (s.sprout n parent).2.free = [] := by rw [free_sprout, hfree, List.tail_nil]
    obtain ⟨new, hnew⟩ := (hs.sprout (n := n) hp rfl rfl).numbers_mountAll hnone
      (fun p (h : some (s.sprout n parent).1 = some p) => Option.some.inj h ▸ htop) children
    exact .of_sprout (n := n) hs.toFreeSlots hfree hp rfl hnew

theorem Forest.numbers_mountAll {s : Surface} (hs : s.Forest) (hfree : s.free = []) {parent : Option Slot}
    (hp : ∀ p, parent = some p → (s.node p).live) : ∀ ms : List Markup,
      ∃ new, Numbers parent new s (s.mountAll parent ms)
  | [] => ⟨[], .nil hfree parent⟩
  | m :: ms => by
    have h₁ := hs.numbers_mount hfree hp m
    have hmount := hs.mounts_mount hp m
    obtain ⟨new, h₂⟩ := hmount.forest.numbers_mountAll h₁.free (fun p h => hmount.live (hp p h)) ms
    exact ⟨_, h₁.cons (fun p h => lt_size_of_live s (hp p h)) h₂⟩

end

/-- **When a page has been mounted, the slots are numbered in document order.** -/
theorem ascending_ofMarkup (ms : List Markup) : (ofMarkup ms).reached.Pairwise (· < ·) := by
  have hno : ∀ p, (none : Option Slot) = some p → ((∅ : Surface).node p).live := nofun
  obtain ⟨new, hn⟩ := forest_empty.numbers_mountAll rfl hno ms
  have hroots : (ofMarkup ms).roots = new := hn.roots
  unfold reached
  rw [hroots]
  exact hn.ascending _

end Surface
end BoundPage
