import BoundPage.Proofs.Markup
import BoundPage.Proofs.Surface.Growth
/-!
# Walks

A walk visits the nodes from a node down, and a description reads them, both to some depth.  What they find depends on
what is below the node only, and a depth that reaches the bottom (`Shallow`) finds all of it.
-/
namespace BoundPage

/-- The description of a node without its children. -/
def Node.described (n : Node) : Markup where
  tag := n.tag
  id := n.id
  externalId := n.externalId
  text := n.text
  attributes := n.attributes
  styles := n.styles.map StyleEntry.text

namespace Surface

theorem walk_succ (s : Surface) (d : Nat) (h : Slot) :
    s.walk (d + 1) h = h :: (s.node h).children.flatMap (s.walk d) := rfl

theorem markupWithin_succ (s : Surface) (d : Nat) (h : Slot) : s.markupWithin (d + 1) h =
    { (s.node h).described with children := (s.node h).children.map (s.markupWithin d) } := rfl

theorem below_of_mem_walk {s : Surface} : ∀ {d : Nat} {h k : Slot}, k ∈ s.walk d h → s.Below h k
  | 0, _, _, hk => by cases hk
  | d + 1, h, k, hk => by
    rw [walk_succ, List.mem_cons, List.mem_flatMap] at hk
    rcases hk with rfl | ⟨c, hc, hk⟩
    · exact .refl k
    · exact Relation.ReflTransGen.head hc (below_of_mem_walk hk)

theorem walk_congr {s t : Surface} : ∀ (d : Nat) (h : Slot),
    (∀ k, s.Below h k → (t.node k).children = (s.node k).children) → t.walk d h = s.walk d h
  | 0, _, _ => rfl
  | d + 1, h, hk => by
    rw [walk_succ, walk_succ, hk h (.refl h), List.flatMap_congr fun c hc => walk_congr d c fun k hb =>
      hk k (Relation.ReflTransGen.head hc hb)]

theorem markupWithin_congr {s t : Surface} : ∀ (d : Nat) (h : Slot), (∀ k, s.Below h k → t.node k = s.node k) →
    t.markupWithin d h = s.markupWithin d h
  | 0, _, _ => rfl
  | d + 1, h, hk => by
    rw [markupWithin_succ, markupWithin_succ, hk h (.refl h), List.map_congr_left fun c hc =>
      markupWithin_congr d c fun k hb => hk k (Relation.ReflTransGen.head hc hb)]

/-! ## Deep enough -/

/-- There are at most so many levels below the node. -/
def Shallow (s : Surface) : Nat → Slot → Prop
  | 0, c => (s.node c).children = []
  | d + 1, c => ∀ c' ∈ (s.node c).children, s.Shallow d c'

namespace Shallow

variable {s t : Surface}

theorem congr : ∀ {d : Nat} {c : Slot}, (∀ k, s.Below c k → (t.node k).children = (s.node k).children) →
    s.Shallow d c → t.Shallow d c
  | 0, c, hk, h => by
    show (t.node c).children = []
    rw [hk c (.refl c)]
    exact h
  | d + 1, c, hk, h => fun c' hc => by
    rw [hk c (.refl c)] at hc
    exact congr (fun k hb => hk k (Relation.ReflTransGen.head hc hb)) (h c' hc)

theorem child {d : Nat} {c c' : Slot} (h : s.Shallow d c) (hc : s.Child c c') : ∃ e, d = e + 1 ∧ s.Shallow e c' := by
  cases d with
  | zero =>
    unfold Child at hc
    rw [show (s.node c).children = [] from h] at hc
    cases hc
  | succ d => exact ⟨d, rfl, h c' hc⟩

/-- **A deeper walk visits nothing more.** -/
theorem walk_eq : ∀ {d : Nat} (e e' : Nat) {h : Slot}, s.Shallow d h → d < e → d < e' → s.walk e h = s.walk e' h
  | _, e + 1, e' + 1, h, hd, he, he' => by
    rw [walk_succ, walk_succ]
    congr 1
    refine List.flatMap_congr fun c hc => ?_
    obtain ⟨d, rfl, hs⟩ := hd.child hc
    exact walk_eq e e' hs (by omega) (by omega)

theorem markupWithin_eq : ∀ {d : Nat} (e e' : Nat) {h : Slot}, s.Shallow d h → d < e → d < e' →
    s.markupWithin e h = s.markupWithin e' h
  | _, e + 1, e' + 1, h, hd, he, he' => by
    have ih : ∀ c ∈ (s.node h).children, s.markupWithin e c = s.markupWithin e' c := fun c hc => by
      obtain ⟨d, rfl, hs⟩ := hd.child hc
      exact markupWithin_eq e e' hs (by omega) (by omega)
    rw [markupWithin_succ, markupWithin_succ, List.map_congr_left ih]

theorem mem_walk : ∀ {d : Nat} (e : Nat) {h k : Slot}, s.Shallow d h → d < e → (k ∈ s.walk e h ↔ s.Below h k)
  | _, e + 1, h, k, hd, he => by
    refine ⟨below_of_mem_walk, fun hb => ?_⟩
    rw [walk_succ, List.mem_cons, List.mem_flatMap]
    rcases hb.cases_head with rfl | ⟨c, hc, hb⟩
    · exact .inl rfl
    · obtain ⟨d, rfl, hs⟩ := hd.child hc
      exact .inr ⟨c, hc, (mem_walk e hs (by omega)).2 hb⟩

/-- **The description of a node holds what a walk visits**, node by node. -/
theorem nodes_markupWithin : ∀ {d : Nat} (e : Nat) {h : Slot}, s.Shallow d h → d < e →
    (s.markupWithin e h).nodes = (s.walk e h).map fun k => (s.node k).described
  | _, e + 1, h, hd, he => by
    have ih : ∀ c ∈ (s.node h).children,
        (s.markupWithin e c).nodes = (s.walk e c).map fun k => (s.node k).described := fun c hc => by
      obtain ⟨d, rfl, hs⟩ := hd.child hc
      exact nodes_markupWithin e hs (by omega)
    rw [markupWithin_succ, walk_succ, Markup.nodes, Markup.nodesOfAll_eq, List.map_cons, List.map_flatMap,
      List.flatMap_map]
    exact congrArg _ (List.flatMap_congr ih)

/-- Two nodes that read the same are equally deep. -/
theorem of_markup_eq : ∀ {d : Nat} {h a : Slot}, t.markupWithin (d + 1) h = s.markupWithin (d + 1) a →
    s.Shallow d a → t.Shallow d h
  | 0, h, a, he, hd => by
    have hch := congrArg Markup.children he
    simp only [markupWithin_succ] at hch
    rw [show (s.node a).children = [] from hd] at hch
    exact List.map_eq_nil_iff.1 hch
  | d + 1, h, a, he, hd => fun c hc => by
    have hch := congrArg Markup.children he
    rw [markupWithin_succ t, markupWithin_succ s] at hch
    have hm := List.mem_map_of_mem (f := t.markupWithin (d + 1)) hc
    rw [show (t.node h).children.map (t.markupWithin (d + 1)) = (s.node a).children.map (s.markupWithin (d + 1))
      from hch] at hm
    obtain ⟨b, hb, hbe⟩ := List.mem_map.1 hm
    exact of_markup_eq hbe.symm (hd b hb)

end Shallow
end Surface
end BoundPage
