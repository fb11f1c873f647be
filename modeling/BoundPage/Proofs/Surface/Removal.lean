import BoundPage.Proofs.Surface.Edits
/-!
# Removal

A node is removed with all that is below it, and a text takes the place of all that is strictly below a node: just
these nodes go, and everything else stays as it is (`Removes`, `Empties`).  Their slots are given back in document
order, and until one of them is used again no data-id is found in it, whatever happens to the surface
(`removes_exactly`).
-/
namespace BoundPage
namespace Surface

variable {s t u : Surface} {n h c d k : Slot}

/-! ## The order of the free slots -/

/-- **Nothing has gone from a node down**: all that is below it on one surface is live on the other, and has the same
children. -/
def Intact (s : Surface) (h : Slot) (t : Surface) : Prop :=
  ∀ k, s.Below h k → (t.node k).live ∧ (t.node k).children = (s.node k).children

/-- Nothing is below both nodes. -/
def SharesNothing (s : Surface) (c d : Slot) : Prop := ∀ k, s.Below c k → ¬ s.Below d k

theorem Intact.release (hd : s.Intact d t) (hc : s.Intact c t) (hapart : s.SharesNothing c d) (hf : Frees t [c] u) :
    s.Intact d u := fun k hk => by
  have hlive : (u.node k).live := by
    by_contra hdead
    obtain ⟨c', hc', hb⟩ := hf.reached (hd k hk).1 (by simpa using hdead)
    rw [List.mem_singleton.1 hc', below_congr fun j hj => (hc j hj).2] at hb
    exact hapart k hb hk
  rw [hf.node_of_live hlive]
  exact hd k hk

/-- **Nodes that are apart are given back one after the other.** -/
theorem free_foldl {f : Surface → Slot → Surface} {walk : Slot → List Slot} {bound : Nat} : ∀ {cs : List Slot},
    (∀ c ∈ cs, ∀ t, t.liveSet.card ≤ bound → s.Intact c t →
      Frees t [c] (f t c) ∧ (f t c).free = (walk c).reverse ++ t.free) →
    cs.Pairwise s.SharesNothing → ∀ t, t.liveSet.card ≤ bound → (∀ c ∈ cs, s.Intact c t) →
    (cs.foldl f t).free = (cs.flatMap walk).reverse ++ t.free
  | [], _, _, _, _, _ => rfl
  | c :: cs, hf, hapart, t, hbound, hintact => by
    obtain ⟨hc, hcs⟩ := List.pairwise_cons.1 hapart
    obtain ⟨hfrees, hfree⟩ := hf c List.mem_cons_self t hbound (hintact c List.mem_cons_self)
    rw [List.foldl_cons, free_foldl (fun d hd => hf d (List.mem_cons_of_mem c hd)) hcs _
      (Nat.le_trans hfrees.card_le hbound) fun d hd => ?_, hfree, List.flatMap_cons, List.reverse_append,
      List.append_assoc]
    exact (hintact d (List.mem_cons_of_mem c hd)).release (hintact c List.mem_cons_self) (hc d hd) hfrees

theorem Level.pairwise_sharesNothing (hs : s.Linked) {l : Nat} (hl : s.Level l h) : (s.node h).children.Pairwise s.SharesNothing := by
  refine (hs.nodup_children h).imp_of_mem fun {a b} ha hb hne k hka hkb => hne ?_
  exact (hl.child hs ha).eq_of_below hs (hl.child hs hb) hka hkb

theorem Level.intact_empty (hs : s.Linked) {l : Nat} (hl : s.Level l h) (hi : s.Intact h t) (hc : s.Child h c) :
    s.Intact c (t.empty h) := fun k hk => by
  have hne : k ≠ h := fun he => hl.not_below_of_child hs hc (he ▸ hk)
  rw [node_empty t (hi h (.refl h)).1, if_neg hne]
  exact hi k (Relation.ReflTransGen.head hc hk)

/-- **A release gives slots back in document order.** -/
theorem free_releaseWithin (hs : s.Linked) : ∀ (depth : Nat) {l : Nat} {h : Slot} (t : Surface), s.Level l h →
    s.Shallow depth h → t.liveSet.card ≤ depth → s.Intact h t →
    (t.releaseWithin depth h).free = (s.walk (depth + 1) h).reverse ++ t.free := by
  intro depth
  induction depth with
  | zero =>
    intro l h t _ hsh _ hi
    rw [releaseWithin, if_pos (hi h (.refl h)).1, walk_succ, show (s.node h).children = [] from hsh]
    rfl
  | succ depth ih =>
    intro l h t hl hsh hcard hi
    obtain ⟨hlive, hchildren⟩ := hi h (.refl h)
    have hempty := card_liveSet_empty t hlive
    have hfold : ((s.node h).children.foldl (releaseWithin depth) (t.empty h)).free =
        ((s.node h).children.flatMap (s.walk (depth + 1))).reverse ++ (t.empty h).free := free_foldl
      (fun c hc t ht hi => ⟨frees_releaseWithin depth t c ht, ih t (hl.child hs hc) (hsh c hc) ht hi⟩)
      (hl.pairwise_sharesNothing hs) (t.empty h) (by omega) fun c hc => hl.intact_empty hs hi hc
    rw [releaseWithin, if_pos hlive, hchildren, hfold, walk_succ, List.reverse_cons, List.append_assoc]
    rfl

theorem Rooted.free_releaseWithin (hs : s.Rooted) (hl : (s.node h).live) (hcard : t.liveSet.card ≤ s.size)
    (hi : s.Intact h t) : (t.releaseWithin s.size h).free = (s.subtree h).reverse ++ t.free := by
  obtain ⟨l, hlevel⟩ := hs.level hl
  have hsh : s.Shallow s.size h := hlevel.shallow hs.toLinked _ (by omega)
  rw [Surface.free_releaseWithin hs.toLinked s.size t hlevel hsh hcard hi, hs.walk_eq hl (Nat.le_succ s.size)]

/-- The nodes strictly below a node, in document order. -/
def descendants (s : Surface) (h : Slot) : List Slot := (s.node h).children.flatMap s.subtree

theorem Rooted.subtree_eq (hs : s.Rooted) (hl : (s.node h).live) : s.subtree h = h :: s.descendants h := by
  rw [← hs.walk_eq hl (Nat.le_succ s.size), walk_succ]
  rfl

theorem Rooted.mem_descendants (hs : s.Rooted) : k ∈ s.descendants h ↔ ∃ c, s.Child h c ∧ s.Below c k := by
  unfold descendants
  rw [List.mem_flatMap]
  exact exists_congr fun c => and_congr_right fun hc => hs.mem_subtree (hs.child (p := h) hc).2.1

theorem Rooted.mem_descendants_iff (hs : s.Rooted) (hl : (s.node h).live) :
    k ∈ s.descendants h ↔ s.Below h k ∧ k ≠ h := by
  have hnodup := hs.nodup_subtree hl
  rw [← hs.mem_subtree hl, hs.subtree_eq hl, List.mem_cons]
  rw [hs.subtree_eq hl, List.nodup_cons] at hnodup
  constructor
  · intro hk
    exact ⟨.inr hk, fun he => hnodup.1 (he ▸ hk)⟩
  · rintro ⟨hk, hne⟩
    exact hk.resolve_left hne

theorem free_remove (hs : s.Rooted) (hl : (s.node n).live) : (s.remove n).free = (s.subtree n).reverse ++ s.free := by
  have hi : s.Intact n (s.detach n) := fun k hk => by
    have hparent : (s.node n).parent ≠ some k := fun hp => hs.not_below_parent hp hk
    rw [node_detach, if_neg hparent]
    exact ⟨hs.live_of_below hk hl, rfl⟩
  have hsize := size_detach (s := s) n
  rw [remove, release, hsize, hs.free_releaseWithin hl (hsize ▸ card_liveSet_le _) hi, free_detach]

theorem foldl_release_eq : ∀ (cs : List Slot) (t : Surface), cs.foldl release t = cs.foldl (releaseWithin t.size) t
  | [], _ => rfl
  | c :: cs, t => by
    have hsize : (t.release c).size = t.size := (frees_release t c).size
    rw [List.foldl_cons, foldl_release_eq cs, hsize]
    rfl

theorem free_setText (hs : s.Rooted) (hl : (s.node n).live) (text : String) :
    (s.setText n text).free = (s.descendants n).reverse ++ s.free := by
  obtain ⟨l, hlevel⟩ := hs.level hl
  have hsize := size_childless s n
  have hi : ∀ c ∈ (s.node n).children, s.Intact c (s.childless n) := fun c hc k hk => by
    have hne : k ≠ n := fun he => hlevel.not_below_of_child hs.toLinked hc (he ▸ hk)
    rw [node_childless, if_neg hne]
    exact ⟨hs.live_of_below hk (hs.child hc).2.1, rfl⟩
  rw [setText_eq, foldl_release_eq, hsize]
  exact free_foldl
    (fun c hc t ht hi => ⟨frees_releaseWithin s.size t c ht, hs.free_releaseWithin (hs.child hc).2.1 ht hi⟩)
    (hlevel.pairwise_sharesNothing hs.toLinked) (s.childless n) (hsize ▸ card_liveSet_le _) hi

/-! ## Free slots, whatever happens -/

namespace FreeSlots

theorem setText (hs : s.FreeSlots) (h : Slot) (text : String) : (s.setText h text).FreeSlots := by
  have hchildless : (s.childless h).FreeSlots := hs.modify h fun _ => rfl
  exact (hchildless.released (frees_setText s h).toReleased).modify h fun _ => rfl

theorem remove (hs : s.FreeSlots) (h : Slot) : (s.remove h).FreeSlots :=
  (hs.detach h).released (frees_remove s h).toReleased

mutual

theorem mount {s : Surface} (hs : s.FreeSlots) (parent : Option Slot) : ∀ m : Markup, (s.mount parent m).2.FreeSlots
  | ⟨tag, id, externalId, text, attributes, styles, children⟩ =>
    mountAll (hs.sprout (.ofMarkup { tag, id, externalId, text, attributes, styles }) parent) _ children

theorem mountAll {s : Surface} (hs : s.FreeSlots) (parent : Option Slot) : ∀ ms : List Markup,
    (s.mountAll parent ms).FreeSlots
  | [] => hs
  | m :: ms => mountAll (mount hs parent m) parent ms

end

theorem copyWithin : ∀ (depth : Nat) {s : Surface} (_ : s.FreeSlots) (source : Slot) (parent : Option Slot),
    (s.copyWithin depth source parent).2.FreeSlots
  | 0, s, hs, source, parent => hs.sprout (s.bare source) parent
  | depth + 1, s, hs, source, parent => by
    rw [copyWithin_succ]
    exact List.foldlRecOn (motive := FreeSlots) _ _ (hs.sprout (s.bare source) parent)
      fun t ht c _ => copyWithin depth ht c _

theorem clone (hs : s.FreeSlots) (template : Slot) (id : String) : (s.clone template id).2.FreeSlots :=
  (hs.copyWithin s.size template (s.node template).parent).modify _ fun _ => rfl

end FreeSlots

/-- Any change of a surface, of whatever nodes: an edit, or one that only changes styles or texts. -/
inductive Alteration where
  | edit (e : Edit)
  | setStyle (h : Slot) (property : String) (value : Option String) (important : Bool)
  | substitute (h : Slot) (placeholder replacement : String)

namespace Alteration

def run (s : Surface) : Alteration → Surface
  | edit e => e.run s
  | setStyle h property value important => s.setStyle h property value important
  | substitute h placeholder replacement => s.substitute h placeholder replacement

/-- **The change uses the slot again**: it takes the slot from the free ones. -/
def Reuses (s : Surface) (k : Slot) (c : Alteration) : Prop := k ∈ s.free ∧ k ∉ (c.run s).free

theorem freeSlots (hs : s.FreeSlots) : ∀ c : Alteration, (c.run s).FreeSlots
  | edit (.mount parent m) => hs.mount parent m
  | edit (.clone template id) => hs.clone template id
  | edit (.setText h text) => hs.setText h text
  | edit (.remove h) => hs.remove h
  | edit (.append parent child) => (hs.detach child).attach (some parent) child
  | setStyle h property value important =>
    have ht := sameTree_setStyle s h property value important
    hs.congr ht.size ht.free ht.live
  | substitute h placeholder replacement =>
    have ht := sameTree_substitute s h placeholder replacement
    hs.congr ht.size ht.free ht.live

end Alteration

def altered (s : Surface) (cs : List Alteration) : Surface := cs.foldl Alteration.run s

/-- **A free slot stays free until it is used again.** -/
theorem mem_free_altered : ∀ {cs : List Alteration} {s : Surface}, s.FreeSlots → k ∈ s.free →
    (∀ pre c post, cs = pre ++ c :: post → ¬ c.Reuses (s.altered pre) k) →
    (s.altered cs).FreeSlots ∧ k ∈ (s.altered cs).free
  | [], _, hs, hk, _ => ⟨hs, hk⟩
  | c :: cs, s, hs, hk, hno => by
    have hk' : k ∈ (c.run s).free := by
      by_contra hnot
      exact hno [] c cs rfl ⟨hk, hnot⟩
    have hrest := mem_free_altered (c.freeSlots hs) hk' fun pre c' post (h : cs = pre ++ c' :: post) =>
      hno (c :: pre) c' post (by rw [h]; rfl)
    exact hrest

/-- **Nothing is found in a free slot until it is used again.** -/
theorem find?_altered_ne (hs : s.FreeSlots) (hk : k ∈ s.free) {cs : List Alteration}
    (hno : ∀ pre c post, cs = pre ++ c :: post → ¬ c.Reuses (s.altered pre) k) (id : String) :
    (s.altered cs).find? id ≠ some k := fun hfound => by
  obtain ⟨hs', hk'⟩ := mem_free_altered hs hk hno
  have hlive := (find?_eq_some _ hfound).1
  rw [(hs'.free_dead k hk').2] at hlive
  cases hlive

/-! ## What is left -/

/-- **Some nodes have gone**, and their slots are free, the last one on top. -/
structure GivesBack (s : Surface) (gone : List Slot) (t : Surface) : Prop where
  live_iff : ∀ k, (t.node k).live ↔ (s.node k).live ∧ k ∉ gone
  size : t.size = s.size
  free : t.free = gone.reverse ++ s.free
  /-- No data-id is found in their slots until they are used again, whatever is done to the surface. -/
  unfound : ∀ k ∈ gone, ∀ cs : List Alteration, (∀ pre c post, cs = pre ++ c :: post → ¬ c.Reuses (t.altered pre) k) →
    ∀ id, (t.altered cs).find? id ≠ some k

theorem givesBack_of_free {gone : List Slot} (ht : t.FreeSlots)
    (hlive : ∀ k, (t.node k).live ↔ (s.node k).live ∧ k ∉ gone) (hsize : t.size = s.size)
    (hfree : t.free = gone.reverse ++ s.free) : GivesBack s gone t where
  live_iff := hlive
  size := hsize
  free := hfree
  unfound _ hk _ hno id :=
    find?_altered_ne ht (hfree ▸ List.mem_append_left _ (List.mem_reverse.2 hk)) hno id

/-- **A node has gone with all that is below it**, and nothing else has changed. -/
structure Removes (s : Surface) (n : Slot) (t : Surface) : Prop extends GivesBack s (s.subtree n) t where
  node : ∀ k ∉ s.subtree n, t.node k =
    { s.node k with children :=
        if (s.node n).parent = some k then (s.node k).children.filter (· != n) else (s.node k).children }
  roots : t.roots = if (s.node n).parent = none then s.roots.filter (· != n) else s.roots

/-- **A text has taken the place of all that is below a node**, and nothing else has changed. -/
structure Empties (s : Surface) (n : Slot) (text : String) (t : Surface) : Prop
    extends GivesBack s (s.descendants n) t where
  node : ∀ k ∉ s.descendants n, t.node k =
    { s.node k with
      children := if k = n then [] else (s.node k).children
      text := if k = n then text else (s.node k).text }
  textContent : t.textContent n = text
  roots : t.roots = s.roots

theorem removes_remove (hs : s.Forest) (hl : (s.node n).live) : s.Removes n (s.remove n) := by
  have hbelow : ∀ {k}, k ∈ s.subtree n ↔ s.Below n k := hs.mem_subtree hl
  have hlive : ∀ k, ((s.remove n).node k).live ↔ (s.node k).live ∧ k ∉ s.subtree n := fun k => by
    rw [hbelow]
    exact live_remove_iff hs.toLinked hl k
  have hsize : (s.remove n).size = s.size := by rw [(frees_remove s n).size, size_detach]
  refine { givesBack_of_free (hs.toFreeSlots.remove n) hlive hsize (free_remove hs.toRooted hl) with
    node := fun k hk => ?_
    roots := by rw [(frees_remove s n).roots, roots_detach] }
  have hne : k ≠ n := fun he => hk (he ▸ hbelow.2 (.refl n))
  by_cases hkl : (s.node k).live
  · exact node_remove ((hlive k).2 ⟨hkl, hk⟩)
  · rcases (frees_remove s n).node k with he | ⟨hkl', -⟩
    · rw [he, node_detach, if_neg hne]
    · rw [node_detach] at hkl'
      exact absurd hkl' hkl

theorem empties_setText (hs : s.Forest) (hl : (s.node n).live) (text : String) :
    s.Empties n text (s.setText n text) := by
  have hmem : ∀ {k}, k ∈ s.descendants n ↔ ∃ c, s.Child n c ∧ s.Below c k := hs.mem_descendants
  have hlive : ∀ k, ((s.setText n text).node k).live ↔ (s.node k).live ∧ k ∉ s.descendants n := fun k => by
    rw [hmem]
    constructor
    · intro hk
      have hkl := (node_setText hk).1
      exact ⟨hkl, (live_setText_iff hs.toRooted hkl text).1 hk⟩
    · rintro ⟨hkl, hk⟩
      exact (live_setText_iff hs.toRooted hkl text).2 hk
  have hnode : ∀ k ∉ s.descendants n, (s.setText n text).node k =
      { s.node k with
        children := if k = n then [] else (s.node k).children
        text := if k = n then text else (s.node k).text } := fun k hk => by
    by_cases hkl : (s.node k).live
    · exact (node_setText ((hlive k).2 ⟨hkl, hk⟩)).2
    · have hne : k ≠ n := fun he => hkl (he ▸ hl)
      rw [setText_eq, node_modify_of_ne _ _ hne, if_neg hne, if_neg hne]
      rcases (frees_setText s n).node k with he | ⟨hkl', -⟩
      · rw [he, node_childless, if_neg hne]
      · rw [node_childless] at hkl'
        exact absurd hkl' hkl
  have hself : n ∉ s.descendants n := fun hn => (hs.mem_descendants_iff hl).1 hn |>.2 rfl
  have hsize : (s.setText n text).size = s.size := by
    rw [setText_eq, size_modify, (frees_setText s n).size, size_childless]
  refine { givesBack_of_free (hs.toFreeSlots.setText n text) hlive hsize (free_setText hs.toRooted hl text) with
    node := hnode
    textContent := ?_
    roots := by rw [setText_eq, roots_modify, (frees_setText s n).roots]; rfl }
  have hsub : (s.setText n text).subtree n = [n] := by
    have hchildren : ((s.setText n text).node n).children = [] := by
      rw [hnode n hself]
      exact if_pos rfl
    rw [(hs.setText n text).subtree_eq ((hlive n).2 ⟨hl, hself⟩), descendants, hchildren]
    rfl
  unfold textContent
  rw [hsub, List.map_singleton, hnode n hself]
  simp

/-- **A removal takes a node and all below it, a text all that is strictly below its node**: just these nodes go, their
slots are free in document order, and everything else stays. -/
theorem removes_exactly (hs : s.Forest) (hl : (s.node n).live) :
    (∀ k, k ∈ s.subtree n ↔ s.Below n k) ∧ (∀ k, k ∈ s.descendants n ↔ s.Below n k ∧ k ≠ n) ∧
      s.Removes n (s.remove n) ∧ ∀ text, s.Empties n text (s.setText n text) :=
  ⟨fun _ => hs.mem_subtree hl, fun _ => hs.mem_descendants_iff hl, removes_remove hs hl, empties_setText hs hl⟩

/-- The item whose second child is in a slot that has been used before goes, and its slots are used next. -/
theorem removes_turnover : ((∅ : Surface).edited turnoverStart).Forest ∧
    (((∅ : Surface).edited turnoverStart).node 1).live ∧
    Removes ((∅ : Surface).edited turnoverStart) 1 (((∅ : Surface).edited turnoverStart).remove 1) ∧
    (((∅ : Surface).edited turnoverStart).remove 1).free = [2, 3, 1] := by
  have hs := (allowed_turnoverStart.kept balanced_empty forest_empty).2
  have hl : (((∅ : Surface).edited turnoverStart).node 1).live := by decide +kernel
  exact ⟨hs, hl, (removes_exactly hs hl).2.2.1, by decide +kernel⟩

end Surface
end BoundPage
