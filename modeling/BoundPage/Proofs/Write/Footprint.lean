import BoundPage.Dependency.Json
import BoundPage.Proofs.Write.Changes
/-!
# The footprint of a pass

What a pass may touch is said by its table beforehand (`Surface.Confined`): texts and what is below a node go where the
table names a node for its value, styles change where it names one for its style or its visibility, and beside the
nodes that are shown or hidden only by the spacing rule of their parent.  Nodes are named on the page as it was before
the pass; the nodes found later are among them, because nothing that is left changes its data-id.
-/
namespace BoundPage
open RenderTarget

def Dependency.kind : Dependency → Kind
  | .value => .value
  | .visible _ => .visible
  | .style _ _ => .style

namespace Surface

/-- **A table names a node**: it has a dependency of the kind for the node's data-id. -/
def Names (s : Surface) (id : String) (table : DependencyTable) (kind : Dependency.Kind) (n : Slot) : Prop :=
  (s.node n).live ∧ ∃ e ∈ table.entries, (s.node n).id = some (NodeKey.mk e.1 id).text ∧ ∃ d ∈ e.2, d.kind = kind

/-- **A node is spaced by a property**: its parent has a rule about the property, and shows or hides one of its
children. -/
def Spaced (s : Surface) (id : String) (table : DependencyTable) (k : Slot) (property : String) : Prop :=
  ∃ n parent, s.Names id table .visible n ∧ (s.node n).parent = some parent ∧ (s.node k).parent = some parent ∧
    s.spacingProperty? parent = some property

theorem Linked.not_spaced {s : Surface} (hs : s.Linked) {property : String}
    (h : ∀ k ∈ s.liveSlots, s.spacingProperty? k ≠ some property) {id : String} {table : DependencyTable} (k : Slot) :
    ¬ s.Spaced id table k property := fun ⟨_, parent, _, hp, _, hrule⟩ =>
  h parent ((mem_liveSlots s).2 (hs.child (hs.parent hp).2).1) hrule

/-- **The style properties that a table says something about**: all of a node that is named for its style, the `display`
of one that is named for its visibility, and the one that a node is spaced by. -/
def MayStyle (s : Surface) (id : String) (table : DependencyTable) (k : Slot) (property : String) : Prop :=
  s.Names id table .style k ∨ s.Names id table .visible k ∧ property = "display" ∨ s.Spaced id table k property

/-- **Nodes may go and change, but keep what they are**, and none comes. -/
structure Kept (s t : Surface) : Prop where
  size : t.size = s.size
  roots : t.roots = s.roots
  live : ∀ k, (t.node k).live → (s.node k).live
  /-- A node that is left keeps its tag, its data-id, its external id, its attributes and its parent. -/
  node : ∀ k, (t.node k).live → t.node k =
    { s.node k with text := (t.node k).text, children := (t.node k).children, styles := (t.node k).styles }

/-- **One page comes from another by changes that a table declares.** -/
structure Confined (id : String) (table : DependencyTable) (s t : Surface) : Prop extends Kept s t where
  /-- A node that is gone was strictly below one that is named for its value. -/
  gone : ∀ k, (s.node k).live → (t.node k).live = false →
    ∃ n c, s.Names id table .value n ∧ s.Child n c ∧ s.Below c k
  content : ∀ k, (t.node k).live → ¬ s.Names id table .value k →
    (t.node k).text = (s.node k).text ∧ (t.node k).children = (s.node k).children
  /-- The value of a property and whether it is important. -/
  style : ∀ k property, (t.node k).live → ¬ s.MayStyle id table k property →
    (t.node k).styles.get? property = (s.node k).styles.get? property
  /-- The order of the properties, too. -/
  styles : ∀ k, (t.node k).live → (∀ property, ¬ s.MayStyle id table k property) →
    (t.node k).styles = (s.node k).styles

variable {id : String} {table : DependencyTable} {s t u : Surface}

theorem size_setText (s : Surface) (n : Slot) (text : String) : (s.setText n text).size = s.size := by
  rw [setText_eq, size_modify, (frees_setText s n).size, size_childless]

theorem roots_setText (s : Surface) (n : Slot) (text : String) : (s.setText n text).roots = s.roots := by
  rw [setText_eq, roots_modify, (frees_setText s n).roots]
  rfl

namespace Kept

theorem refl (s : Surface) : Kept s s := ⟨rfl, rfl, fun _ h => h, fun _ _ => rfl⟩

theorem trans (h : Kept s t) (h' : Kept t u) : Kept s u where
  size := h'.size.trans h.size
  roots := h'.roots.trans h.roots
  live k hk := h.live k (h'.live k hk)
  node k hk := by rw [h'.node k hk, h.node k (h'.live k hk)]

theorem dataId (h : Kept s t) {k : Slot} (hk : (t.node k).live) : (t.node k).id = (s.node k).id := by
  rw [h.node k hk]

theorem parent (h : Kept s t) {k : Slot} (hk : (t.node k).live) : (t.node k).parent = (s.node k).parent := by
  rw [h.node k hk]

theorem child (h : Kept s t) (hs : s.Linked) (ht : t.Linked) {a b : Slot} (hab : t.Child a b) : s.Child a b := by
  obtain ⟨-, hb, hp⟩ := ht.child hab
  rw [h.parent hb] at hp
  exact (hs.parent hp).2

theorem spacingProperty? (h : Kept s t) {parent : Slot} (hl : (t.node parent).live) :
    t.spacingProperty? parent = s.spacingProperty? parent := by
  show Option.map _ (Option.bind ((t.node parent).attributes.get? _) _) =
    Option.map _ (Option.bind ((s.node parent).attributes.get? _) _)
  rw [h.node parent hl]

theorem names (h : Kept s t) {kind : Dependency.Kind} {n : Slot} (hn : t.Names id table kind n) :
    s.Names id table kind n := by
  obtain ⟨hl, e, he, hid, hd⟩ := hn
  exact ⟨h.live n hl, e, he, by rw [← h.dataId hl]; exact hid, hd⟩

theorem setText (h : Kept s t) (n : Slot) (text : String) : Kept s (t.setText n text) where
  size := (size_setText t n text).trans h.size
  roots := (roots_setText t n text).trans h.roots
  live k hk := h.live k (node_setText hk).1
  node k hk := by
    rw [(node_setText hk).2]
    exact congrArg (fun m : Node =>
      { m with
        children := if k = n then [] else (t.node k).children
        text := if k = n then text else (t.node k).text }) (h.node k (node_setText hk).1)

theorem restyled (h : Kept s t) {changed : Slot → String → Prop} (hr : Restyled changed t u) : Kept s u where
  size := hr.size.trans h.size
  roots := hr.roots.trans h.roots
  live k hk := by rw [hr.sameTree.live] at hk; exact h.live k hk
  node k hk := by
    rw [hr.sameTree.live] at hk
    rw [hr.node]
    exact congrArg (fun m : Node => { m with styles := (u.node k).styles }) (h.node k hk)

end Kept

namespace Confined

theorem refl (id : String) (table : DependencyTable) (s : Surface) : Confined id table s s where
  toKept := .refl s
  gone k h h' := by rw [h] at h'; cases h'
  content _ _ _ := ⟨rfl, rfl⟩
  style _ _ _ _ := rfl
  styles _ _ _ := rfl

theorem setText (h : Confined id table s t) (hs : s.Linked) (ht : t.Linked) {n : Slot}
    (hn : s.Names id table .value n) (text : String) : Confined id table s (t.setText n text) where
  toKept := h.toKept.setText n text
  gone k hk hd := by
    by_cases hkt : (t.node k).live
    · by_cases hb : ∃ c, t.Child n c ∧ t.Below c k
      · obtain ⟨c, hnc, hck⟩ := hb
        exact ⟨n, c, hn, h.child hs ht hnc, hck.mono fun _ _ => h.child hs ht⟩
      · rw [live_setText hkt (fun c hc hb' => hb ⟨c, hc, hb'⟩) text] at hd
        cases hd
    · exact h.gone k hk (by simpa using hkt)
  content k hk hnot := by
    have hkn : k ≠ n := fun he => hnot (he ▸ hn)
    rw [(node_setText hk).2, if_neg hkn, if_neg hkn]
    exact h.content k (node_setText hk).1 hnot
  style k property hk hnot := by rw [(node_setText hk).2]; exact h.style k property (node_setText hk).1 hnot
  styles k hk hnot := by rw [(node_setText hk).2]; exact h.styles k (node_setText hk).1 hnot

theorem restyled (h : Confined id table s t) {changed : Slot → String → Prop} (hr : Restyled changed t u)
    (hc : ∀ k property, (t.node k).live → changed k property → s.MayStyle id table k property) :
    Confined id table s u where
  toKept := h.toKept.restyled hr
  gone k hk hd := by rw [hr.sameTree.live] at hd; exact h.gone k hk hd
  content k hk hnot := by rw [hr.sameTree.live] at hk; rw [hr.node]; exact h.content k hk hnot
  style k property hk hnot := by
    rw [hr.sameTree.live] at hk
    rw [hr.entry k property fun hch => hnot (hc k property hk hch)]
    exact h.style k property hk hnot
  styles k hk hnot := by
    rw [hr.sameTree.live] at hk
    rw [hr.styles k fun property hch => hnot property (hc k property hk hch)]
    exact h.styles k hk hnot

end Confined
end Surface

namespace Pass

variable {p : Pass Surface} {st : State Surface} {s t : Surface}

theorem names_of_locate {e : String × List Dependency} {d : Dependency} {n : Slot} (he : e ∈ p.dependents.entries)
    (hd : d ∈ e.2) (hl : locate t (p.key e.1) = some n) : t.Names p.instanceId p.dependents d.kind n :=
  ⟨(ListRegion.locate_live hl).1, e, he, (ListRegion.locate_live hl).2, d, hd, rfl⟩

/-- **What is spaced with a node that is named for its visibility** on a page that has kept its nodes is so spaced on
the page as it was. -/
theorem spaced_of_child {id : String} {table : DependencyTable} (ht : t.Linked) (hk : Surface.Kept s t) {n : Slot}
    (hn : s.Names id table .visible n) (hl : (t.node n).live) {k : Slot} {property : String}
    (h : ∃ parent, (t.node n).parent = some parent ∧ t.Child parent k ∧ t.spacingProperty? parent = some property) :
    s.Spaced id table k property := by
  obtain ⟨parent, hparent, hchild, hrule⟩ := h
  obtain ⟨hplive, hklive, hkparent⟩ := ht.child hchild
  refine ⟨n, parent, hn, ?_, ?_, ?_⟩
  · rw [← hk.parent hl]; exact hparent
  · rw [← hk.parent hklive]; exact hkparent
  · rw [← hk.spacingProperty? hplive]; exact hrule

/-- **A dependency stays within the footprint**, unless it rebuilds a list. -/
theorem Change.confined (hp : p.effector = inlineStyles) (hs : s.Linked) {e : String × List Dependency}
    (he : e ∈ p.dependents.entries) (hplain : Element.isTemplate e.1 = false) {d : Dependency} (hd : d ∈ e.2)
    {table : DependencyTable} {destroyed : List String} (hlinked : st.surface.Linked)
    (hst : Surface.Confined p.instanceId p.dependents s st.surface)
    (h : p.Change (p.key e.1) e.2 st d t table destroyed) :
    Surface.Confined p.instanceId p.dependents s t ∧ table = st.table := by
  cases h with
  | owned _ => exact ⟨hst, rfl⟩
  | text _ _ hl => exact ⟨hst.setText hs hlinked (hst.names (names_of_locate he hd hl)) p.value, rfl⟩
  | list hr =>
    have htemplate : Element.isTemplate e.1 := hr.isTemplate
    rw [hplain] at htemplate
    cases htemplate
  | visible hl =>
    have hn := hst.names (names_of_locate he hd hl)
    refine ⟨hst.restyled (restyled_visible _ _ _) fun k property _ hc => .inr ?_, rfl⟩
    rcases hc with ⟨rfl, hproperty⟩ | hbeside
    · exact .inl ⟨hn, hproperty⟩
    · exact .inr (spaced_of_child hlinked hst.toKept hn (ListRegion.locate_live hl).1 hbeside)
  | style hl =>
    refine ⟨hst.restyled (restyled_styleParameters hp _ _ _ _ _) fun k property _ hc => .inl ?_, rfl⟩
    rw [hc]
    exact hst.names (names_of_locate he hd hl)

/-- **A pass without templates stays within its footprint** at every stage, and leaves its table. -/
theorem stage_confined (hp : p.effector = inlineStyles) (hs : s.Linked)
    (hplain : ∀ element ∈ p.dependents.names, Element.isTemplate element = false) :
    (∀ e left st, p.At s e left st →
      st.surface.Linked ∧ Surface.Confined p.instanceId p.dependents s st.surface ∧ st.table = p.dependents) ∧
    (p.run s).surface.Linked ∧ Surface.Confined p.instanceId p.dependents s (p.run s).surface ∧
      (p.run s).table = p.dependents :=
  run_induction (p := p) (s := s)
    (I := fun t table _ => t.Linked ∧ Surface.Confined p.instanceId p.dependents s t ∧ table = p.dependents)
    ⟨hs, .refl _ _ s, rfl⟩ fun e d left st st' hst ⟨hlinked, hconf, htable⟩ hok => by
      have hch := change_of_applyOne hok
      obtain ⟨h1, h2⟩ :=
        hch.confined hp hs hst.mem (hplain e.1 (List.mem_map_of_mem hst.mem)) hst.mem_left hlinked hconf
      exact ⟨hch.linked hp hlinked, h1, h2.trans htable⟩

end Pass
end BoundPage
