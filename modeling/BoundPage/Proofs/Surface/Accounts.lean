import Mathlib.Data.List.Infix
import Mathlib.Order.Bounds.Defs
import BoundPage.Proofs.Surface.Items
/-!
# Accounts of the slots

On a balanced surface every slot is in use or free.  Edits on live nodes keep it so: what they add goes to free slots
first and to new ones then, and what they remove is free afterwards.  So there are as many slots as there have ever
been live nodes at a time.
-/
namespace BoundPage
namespace Surface

variable {s t u : Surface}

/-- **Every slot is in use or free**, and none is free twice. -/
structure Balanced (s : Surface) : Prop extends FreeSlots s where
  full : ∀ {k}, k < s.size → (s.node k).live = false → k ∈ s.free

/-- **Nodes have been added**, and slots only for those that the free ones had no room for. -/
structure Fills (s t : Surface) : Prop where
  liveCount_le : s.liveCount ≤ t.liveCount
  size : t.size = max s.size t.liveCount

theorem Fills.trans (h : Fills s t) (h' : Fills t u) : Fills s u where
  liveCount_le := Nat.le_trans h.liveCount_le h'.liveCount_le
  size := by
    have := h.size
    have := h'.size
    have := h'.liveCount_le
    omega

theorem Fills.refl (s : Surface) : Fills s s := ⟨Nat.le_refl _, (Nat.max_eq_left s.liveCount_le_size).symm⟩

theorem balanced_empty : (∅ : Surface).Balanced :=
  { forest_empty with full := fun hk => absurd hk (Nat.not_lt_zero _) }

namespace Balanced

theorem mem_free (hs : s.Balanced) {k : Slot} : k ∈ s.free ↔ k < s.size ∧ (s.node k).live = false :=
  ⟨hs.free_dead k, fun h => hs.full h.1 h.2⟩

/-- **The slots are those in use and the free ones.** -/
theorem count (hs : s.Balanced) : s.liveCount + s.free.length = s.size := by
  have hperm : (s.liveSlots ++ s.free).Perm (List.range s.size) := by
    refine (List.perm_ext_iff_of_nodup (List.nodup_append.2 ⟨s.nodup_liveSlots, hs.nodup_free, ?_⟩)
      List.nodup_range).2 fun k => ?_
    · rintro a ha b hb rfl
      have h1 := s.mem_liveSlots.1 ha
      rw [(hs.free_dead a hb).2] at h1
      cases h1
    · rw [List.mem_append, mem_liveSlots, hs.mem_free, List.mem_range]
      refine ⟨fun h => h.elim s.lt_size_of_live And.left, fun hk => ?_⟩
      cases hl : (s.node k).live with
      | true => exact .inl rfl
      | false => exact .inr ⟨hk, rfl⟩
  have := hperm.length_eq
  rw [List.length_append, List.length_range] at this
  exact this

theorem sameTree (hs : s.Balanced) (h : SameTree s t) : t.Balanced where
  toFreeSlots := hs.toFreeSlots.congr h.size h.free h.live
  full hk hd := by rw [h.size] at hk; rw [h.live] at hd; rw [h.free]; exact hs.full hk hd

end Balanced

theorem SameTree.liveCount (h : SameTree s t) : t.liveCount = s.liveCount := by
  unfold Surface.liveCount liveSlots
  rw [h.size]
  exact congrArg List.length (List.filter_congr fun k _ => h.live k)

theorem SameTree.fills (h : SameTree s t) : Fills s t where
  liveCount_le := Nat.le_of_eq h.liveCount.symm
  size := by rw [h.size, h.liveCount]; exact (Fills.refl s).size

/-! ## Nodes come -/

theorem size_sprout (s : Surface) (n : Node) (parent : Option Slot) :
    (s.sprout n parent).2.size = if s.free = [] then s.size + 1 else s.size := by
  show ((s.place n).2.attach parent (s.place n).1).size = _
  rw [size_attach]
  unfold place
  cases s.free with
  | nil => simp [size]
  | cons h free => simp [size]

/-- **A live node that is added takes a free slot**, or a new one if none is free. -/
theorem Balanced.sprout (hb : s.Balanced) (hs : s.Linked) {n : Node} {parent : Option Slot}
    (hp : ∀ p, parent = some p → (s.node p).live) (hn : n.children = []) (hl : n.live) :
    (s.sprout n parent).2.Balanced ∧ Fills s (s.sprout n parent).2 := by
  have hsize := size_sprout s n parent
  have hfree := free_sprout s n parent
  have hbal : (s.sprout n parent).2.Balanced := {
    toFreeSlots := (hs.sprout hp hn (.inr hl)).toFreeSlots
    full := fun {k} hk hd => by
      rw [live_sprout hs.toFreeSlots hp] at hd
      by_cases hkh : k = (s.sprout n parent).1
      · rw [if_pos hkh] at hd
        exact absurd hl (by simpa using hd)
      · rw [if_neg hkh] at hd
        rw [hfree]
        rw [hsize] at hk
        change k ≠ (s.place n).1 at hkh
        unfold place at hkh
        cases hf : s.free with
        | nil =>
          rw [hf] at hkh hk
          have hlt : k < s.size := Nat.lt_of_le_of_ne (Nat.lt_succ_iff.1 hk) hkh
          have := hb.full hlt hd
          rwa [hf] at this
        | cons h free =>
          rw [hf] at hkh hk
          have := hb.full hk hd
          rw [hf] at this
          exact (List.mem_cons.1 this).resolve_left hkh }
  refine ⟨hbal, ?_⟩
  have h1 := hb.count
  have h2 := hbal.count
  rw [hfree] at h2
  cases hf : s.free with
  | nil =>
    rw [hf] at hsize h1 h2
    simp only [if_true, List.length_nil, List.tail_nil] at hsize h1 h2
    exact ⟨by omega, by omega⟩
  | cons h free =>
    rw [hf] at hsize h1 h2
    simp only [reduceCtorEq, if_false, List.length_cons, List.tail_cons] at hsize h1 h2
    exact ⟨by omega, by omega⟩

theorem Balanced.foldl_copyWithin {depth : Nat} {h : Slot}
    (ih : ∀ (s : Surface) (c : Slot), s.Linked → s.Balanced → (s.node c).live → (s.node h).live →
      (copyWithin depth s c (some h)).2.Balanced ∧ Fills s (copyWithin depth s c (some h)).2) :
    ∀ (cs : List Slot) (s : Surface), s.Linked → s.Balanced → (s.node h).live → (∀ c ∈ cs, (s.node c).live) →
      (cs.foldl (fun t c => (copyWithin depth t c (some h)).2) s).Balanced ∧
        Fills s (cs.foldl (fun t c => (copyWithin depth t c (some h)).2) s)
  | [], s, _, hb, _, _ => ⟨hb, .refl s⟩
  | c :: cs, s, hs, hb, hh, hcs => by
    have hc := copies_copyWithin depth s c (some h) hs (hcs c List.mem_cons_self) fun p hp => by
      rw [← Option.some.inj hp]
      exact hh
    obtain ⟨h1, h2⟩ := ih s c hs hb (hcs c List.mem_cons_self) hh
    obtain ⟨h3, h4⟩ := foldl_copyWithin ih cs _ hc.linked h1 (hc.live hh)
      fun d hd => hc.live (hcs d (List.mem_cons_of_mem c hd))
    exact ⟨h3, h2.trans h4⟩

theorem Balanced.copyWithin : ∀ (depth : Nat) (s : Surface) (source : Slot) (parent : Option Slot), s.Linked →
    s.Balanced → (s.node source).live → (∀ p, parent = some p → (s.node p).live) →
    (copyWithin depth s source parent).2.Balanced ∧ Fills s (copyWithin depth s source parent).2 := by
  intro depth
  induction depth with
  | zero => exact fun s source parent hs hb hl hp => hb.sprout hs hp rfl hl
  | succ depth ih =>
    intro s source parent hs hb hl hp
    have hc := copies_sprout hs hl hp
    obtain ⟨h1, h2⟩ := hb.sprout (n := s.bare source) hs hp rfl hl
    rw [copyWithin_succ]
    obtain ⟨h3, h4⟩ := foldl_copyWithin (fun s c hs hb hc hh => ih s c _ hs hb hc fun p hp => by
        rw [← Option.some.inj hp]
        exact hh)
      (s.node source).children _ hc.linked h1 (hc.live_top hl)
      fun c hcs => hc.live (hs.child (p := source) hcs).2.1
    exact ⟨h3, h2.trans h4⟩

theorem Balanced.copy (hb : s.Balanced) (hs : s.Linked) {template : Slot} (hl : (s.node template).live) :
    (s.copy template (s.node template).parent).2.Balanced ∧ Fills s (s.copy template (s.node template).parent).2 :=
  Balanced.copyWithin s.size s template _ hs hb hl fun _ hp => hs.parent_live hp

mutual

theorem Balanced.mount {s : Surface} (hb : s.Balanced) (hs : s.Forest) {parent : Option Slot}
    (hp : ∀ p, parent = some p → (s.node p).live) : ∀ m : Markup, (s.mount parent m).2.Balanced ∧
      Fills s (s.mount parent m).2
  | ⟨tag, id, externalId, text, attributes, styles, children⟩ => by
    let n : Node := .ofMarkup { tag, id, externalId, text, attributes, styles }
    obtain ⟨h1, h2⟩ := hb.sprout (n := n) hs.toLinked hp rfl rfl
    have htop : ((s.sprout n parent).2.node (s.sprout n parent).1).live := live_sprout_self hs.toFreeSlots hp
    obtain ⟨h3, h4⟩ := Balanced.mountAll h1 (hs.sprout (n := n) hp rfl rfl)
      (fun p (h : some (s.sprout n parent).1 = some p) => Option.some.inj h ▸ htop) children
    exact ⟨h3, h2.trans h4⟩

theorem Balanced.mountAll {s : Surface} (hb : s.Balanced) (hs : s.Forest) {parent : Option Slot}
    (hp : ∀ p, parent = some p → (s.node p).live) : ∀ ms : List Markup, (s.mountAll parent ms).Balanced ∧
      Fills s (s.mountAll parent ms)
  | [] => ⟨hb, .refl s⟩
  | m :: ms => by
    have hm := hs.mounts_mount hp m
    obtain ⟨h1, h2⟩ := Balanced.mount hb hs hp m
    obtain ⟨h3, h4⟩ := Balanced.mountAll h1 hm.forest (fun p h => hm.live (hp p h)) ms
    exact ⟨h3, h2.trans h4⟩

end

/-! ## Nodes go -/

/-- **What is released is free.** -/
theorem Balanced.of_frees {cs : List Slot} (hb : s.Balanced) (h : Frees s cs t) (ht : t.FreeSlots) : t.Balanced where
  toFreeSlots := ht
  full {k} hk hd := by
    obtain ⟨new, hf, -, hnew⟩ := h.free
    rw [hf, List.mem_append]
    rw [h.size] at hk
    cases hl : (s.node k).live with
    | true => exact .inl ((hnew k).2 ⟨hl, hd⟩)
    | false => exact .inr (hb.full hk hl)

theorem Balanced.childless (hb : s.Balanced) (h : Slot) : (s.childless h).Balanced where
  toFreeSlots := hb.toFreeSlots.modify h fun _ => rfl
  full hk hd := by rw [size_childless] at hk; rw [node_childless] at hd; exact hb.full hk hd

theorem Balanced.detach (hb : s.Balanced) (c : Slot) : (s.detach c).Balanced where
  toFreeSlots := hb.toFreeSlots.detach c
  full hk hd := by rw [size_detach] at hk; rw [node_detach] at hd; rw [free_detach]; exact hb.full hk hd

theorem live_setText_iff (hs : s.Rooted) {n k : Slot} (hk : (s.node k).live) (text : String) :
    ((s.setText n text).node k).live ↔ ¬ ∃ c, s.Child n c ∧ s.Below c k := by
  refine ⟨?_, fun h => live_setText hk (fun c hc hb => h ⟨c, hc, hb⟩) text⟩
  rintro hl ⟨c, hc, hb⟩
  rw [setText_eq, (sameTree_text _ n text).live] at hl
  -- The way down from the child does not come back to the node, so it is still there without the node's children.
  have hb' : (s.childless n).Below c k := (below_congr fun j hj => by
    have hne : j ≠ n := fun he => by
      obtain ⟨m, hm⟩ := hs.level (hs.child hc).1
      exact hm.not_below_of_child hs.toLinked hc (he ▸ hj)
    rw [node_childless, if_neg hne]).2 hb
  have hdead := (frees_setText s n).dead_of_below (fun hab => ((hs.loosened_childless n).child hab).1) hc hb'
  rw [hdead] at hl
  cases hl

end Surface
end BoundPage
