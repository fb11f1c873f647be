import BoundPage.Proofs.Surface.Forest
/-!
# Orderly surfaces

What a forest looks like from outside (`orderly_iff_forest`): parents and children agree, no removed node is listed
anywhere, a walk from the roots meets every live node once, the description of the page has one entry for each live
node, and reading or copying deeper than there are slots finds nothing more.
-/
namespace BoundPage

namespace Surface

/-- All nodes that are reached from the roots, in document order. -/
def reached (s : Surface) : List Slot := s.roots.flatMap s.subtree

/-- **Every live node has its one place in the trees**, and the trees can be read and copied to the end. -/
structure Orderly (s : Surface) : Prop where
  /-- The children of a node are the live nodes that have it as their parent. -/
  child_iff : ∀ p c, (s.node p).live → (c ∈ (s.node p).children ↔ (s.node c).live ∧ (s.node c).parent = some p)
  /-- The roots are the live nodes without a parent. -/
  root_iff : ∀ k, k ∈ s.roots ↔ (s.node k).live ∧ (s.node k).parent = none
  parent_live : ∀ {c p}, (s.node c).live → (s.node c).parent = some p → (s.node p).live
  /-- Every live node is reached once. -/
  reached_once : s.reached.Perm s.liveSlots
  /-- The description of the page holds what is reached, each node once. -/
  described : s.markup.flatMap Markup.nodes = s.reached.map fun k => (s.node k).described
  /-- No tree is deeper than there are slots. -/
  walk_eq : ∀ {h d}, (s.node h).live → s.size ≤ d → s.walk d h = s.subtree h
  markupWithin_eq : ∀ {h d}, (s.node h).live → s.size ≤ d → s.markupWithin d h = s.markupOf h
  copyWithin_eq : ∀ {h d parent}, (s.node h).live → (∀ p, parent = some p → (s.node p).live ∧ p ∉ s.subtree h) →
    s.size ≤ d → copyWithin d s h parent = s.copy h parent

theorem Orderly.count (s : Surface) (h : s.Orderly) : (s.markup.flatMap Markup.nodes).length = s.liveCount := by
  rw [h.described, List.length_map, h.reached_once.length_eq]
  rfl

variable {s : Surface}

theorem Rooted.mem_reached (hs : s.Rooted) (hr : ∀ k ∈ s.roots, (s.node k).live) {k : Slot} :
    k ∈ s.reached ↔ (s.node k).live := by
  unfold reached
  rw [List.mem_flatMap]
  constructor
  · rintro ⟨r, hrr, hk⟩
    exact hs.live_of_below ((hs.mem_subtree (hr r hrr)).1 hk) (hr r hrr)
  · intro hk
    obtain ⟨n, hn⟩ := hs.level hk
    obtain ⟨r, hl, hp, hb⟩ := hn.exists_top hs.toLinked
    exact ⟨r, hs.root hl hp, (hs.mem_subtree hl).2 hb⟩

theorem Forest.nodup_reached (hs : s.Forest) : s.reached.Nodup := by
  unfold reached
  rw [List.nodup_flatMap]
  refine ⟨fun r hr => hs.nodup_subtree (hs.root_live hr), ?_⟩
  refine hs.nodup_roots.imp_of_mem fun {a b} ha hb hne k hka hkb => hne ?_
  have ha' : s.Level 0 a := ⟨hs.root_live ha, (hs.top ha).1⟩
  have hb' : s.Level 0 b := ⟨hs.root_live hb, (hs.top hb).1⟩
  exact ha'.eq_of_below hs.toLinked hb' (below_of_mem_walk hka) (below_of_mem_walk hkb)

theorem Forest.orderly (hs : s.Forest) : s.Orderly where
  child_iff p c _ := ⟨fun hc => (hs.child hc).2, fun hc => (hs.parent hc.2).2⟩
  root_iff k := ⟨fun hk => ⟨hs.root_live hk, (hs.top hk).1⟩, fun hk => hs.root hk.1 hk.2⟩
  parent_live _ hp := hs.toLinked.parent_live hp
  reached_once := by
    refine (List.perm_ext_iff_of_nodup hs.nodup_reached s.nodup_liveSlots).2 fun k => ?_
    rw [hs.mem_reached fun k => hs.root_live, mem_liveSlots]
  described := by
    unfold markup reached
    rw [List.flatMap_map, List.map_flatMap]
    exact List.flatMap_congr fun r hr => hs.nodes_markupOf (hs.root_live hr)
  walk_eq hl hd := hs.toRooted.walk_eq hl hd
  markupWithin_eq hl hd := hs.toRooted.markupWithin_eq hl hd
  copyWithin_eq {h d parent} hl hp hd := by
    obtain ⟨n, hn⟩ := hs.level hl
    exact Surface.copyWithin_eq d s.size s h parent hs.toLinked hl (fun p h => (hp p h).1)
      (fun p h hb => (hp p h).2 ((hs.mem_subtree hl).2 hb)) (hn.shallow hs.toLinked d (by omega))
      (hn.shallow hs.toLinked _ (by omega))

/-- **On a linked surface, to be orderly is to be a forest.** -/
theorem orderly_iff_forest (hs : s.Linked) : s.Orderly ↔ s.Forest := by
  refine ⟨fun h => ?_, Forest.orderly⟩
  have hroot : ∀ {k}, k ∈ s.roots → (s.node k).live := fun {k} hk => ((h.root_iff k).1 hk).1
  refine { hs with level := fun {k} hk => ?_, root_live := hroot }
  obtain ⟨r, hr, hb⟩ := List.mem_flatMap.1 (h.reached_once.mem_iff.2 ((mem_liveSlots s).2 hk))
  have hb := below_of_mem_walk hb
  have hl : s.Level 0 r := ⟨hroot hr, (hs.top hr).1⟩
  obtain ⟨d, hd, -⟩ := hl.below hs hb
  exact ⟨_, hd⟩

end Surface
end BoundPage
