import BoundPage.Surface.Target
/-!
# What is in the slots

Every change of a surface is a few changes of single slots.  For each of them: what is in every slot afterwards, and
what becomes of the roots and of the free slots.
-/
namespace BoundPage

/-- What a node says about itself, apart from its place in the tree. -/
def Node.own (n : Node) : Node := { n with children := [], parent := none }

section

variable {n m : Node} (h : n.own = m.own)
include h

theorem Node.live_eq : n.live = m.live := show n.own.live = m.own.live by rw [h]

theorem Node.id_eq : n.id = m.id := show n.own.id = m.own.id by rw [h]

theorem Node.externalId_eq : n.externalId = m.externalId := show n.own.externalId = m.own.externalId by rw [h]

theorem Node.text_eq : n.text = m.text := show n.own.text = m.own.text by rw [h]

theorem Node.attributes_eq : n.attributes = m.attributes := show n.own.attributes = m.own.attributes by rw [h]

theorem Node.styles_eq : n.styles = m.styles := show n.own.styles = m.own.styles by rw [h]

end

namespace Surface

variable (s : Surface)

theorem node_of_size_le {k : Slot} (h : s.size ≤ k) : s.node k = default := by
  unfold node
  rw [Array.getElem?_eq_none h]
  rfl

theorem lt_size_of_live {k : Slot} (h : (s.node k).live) : k < s.size := by
  by_cases hk : k < s.size
  · exact hk
  · rw [node_of_size_le s (Nat.le_of_not_lt hk)] at h
    cases h

theorem mem_liveSlots {k : Slot} : k ∈ s.liveSlots ↔ (s.node k).live := by
  unfold liveSlots
  rw [List.mem_filter, List.mem_range]
  exact ⟨fun h => h.2, fun h => ⟨lt_size_of_live s h, h⟩⟩

theorem nodup_liveSlots : s.liveSlots.Nodup := List.nodup_range.filter _

theorem find?_eq_some {id : String} {k : Slot} (h : s.find? id = some k) :
    (s.node k).live ∧ (s.node k).id = some id :=
  ⟨(mem_liveSlots s).1 (List.mem_of_find?_eq_some h), by simpa using List.find?_some h⟩

theorem find?_eq_none {id : String} : s.find? id = none ↔ ∀ k, (s.node k).live → (s.node k).id ≠ some id := by
  unfold find?
  rw [List.find?_eq_none]
  constructor
  · intro h k hk
    simpa using h k ((mem_liveSlots s).2 hk)
  · intro h k hk
    simpa using h k ((mem_liveSlots s).1 hk)

/-- A data-id is looked up by what is there and by the data-ids alone. -/
theorem find?_congr {s t : Surface} (hsize : t.size = s.size) (hlive : ∀ k, (t.node k).live = (s.node k).live)
    (hid : ∀ k, (t.node k).id = (s.node k).id) (id : String) : t.find? id = s.find? id := by
  have hslots : t.liveSlots = s.liveSlots := by
    unfold liveSlots
    rw [hsize]
    exact List.filter_congr fun k _ => hlive k
  unfold find?
  rw [hslots]
  congr 1
  funext k
  rw [hid]

/-! ## One slot -/

@[simp] theorem size_modify (h : Slot) (f : Node → Node) : (s.modify h f).size = s.size := by simp [modify, size]

@[simp] theorem roots_modify (h : Slot) (f : Node → Node) : (s.modify h f).roots = s.roots := rfl

theorem node_modify (h : Slot) (f : Node → Node) (k : Slot) :
    (s.modify h f).node k = if k = h ∧ h < s.size then f (s.node k) else s.node k := by
  unfold modify node size
  simp only [Array.getElem?_modify]
  by_cases hk : k = h
  · subst hk
    by_cases hlt : k < s.slots.size
    · simp [hlt]
    · simp [hlt]
  · simp [hk, Ne.symm hk]

theorem node_modify_of_ne {h k : Slot} (f : Node → Node) (hk : k ≠ h) : (s.modify h f).node k = s.node k := by
  rw [node_modify, if_neg (fun hc => hk hc.1)]

theorem node_modify_self {h : Slot} (f : Node → Node) (hs : h < s.size) : (s.modify h f).node h = f (s.node h) := by
  rw [node_modify, if_pos ⟨rfl, hs⟩]

/-- A change that leaves an unused slot unused needs no slot that is there. -/
theorem node_modify_of_default (h : Slot) (f : Node → Node) (hf : f default = default) (k : Slot) :
    (s.modify h f).node k = if k = h then f (s.node k) else s.node k := by
  rw [node_modify]
  by_cases hk : k = h
  · by_cases hs : h < s.size
    · simp [hk, hs]
    · rw [if_neg (fun hc => hs hc.2), if_pos hk, node_of_size_le s (hk ▸ Nat.le_of_not_lt hs), hf]
  · simp [hk]

/-! ## Taking a slot -/

/-- The free slots are there, and nobody is in them. -/
structure FreeSlots : Prop where
  free_dead : ∀ k ∈ s.free, k < s.size ∧ (s.node k).live = false
  nodup_free : s.free.Nodup

variable {s}

theorem size_le_size_place (n : Node) : s.size ≤ (s.place n).2.size := by
  unfold place
  cases s.free with
  | nil => simp [size]
  | cons h free => simp [size]

theorem roots_place (n : Node) : (s.place n).2.roots = s.roots := by
  unfold place
  cases s.free <;> rfl

theorem free_place (n : Node) : (s.place n).2.free = s.free.tail := by
  unfold place
  cases hf : s.free with
  | nil => simp
  | cons h free => rfl

theorem place_fst_dead (hs : s.FreeSlots) (n : Node) : (s.node (s.place n).1).live = false := by
  unfold place
  cases hf : s.free with
  | nil => simp [node_of_size_le s (Nat.le_refl _)]; rfl
  | cons h free => exact (hs.free_dead h (by simp [hf])).2

theorem place_fst_lt (hs : s.FreeSlots) (n : Node) : (s.place n).1 < (s.place n).2.size := by
  unfold place
  cases hf : s.free with
  | nil => simp [size]
  | cons h free => simpa [size] using (hs.free_dead h (by simp [hf])).1

theorem place_fst_not_mem_free (hs : s.FreeSlots) (n : Node) : (s.place n).1 ∉ s.free.tail := by
  unfold place
  cases hf : s.free with
  | nil => simp
  | cons h free =>
    have hn := hs.nodup_free
    rw [hf] at hn
    exact (List.nodup_cons.1 hn).1

theorem node_place (hs : s.FreeSlots) (n : Node) (k : Slot) :
    (s.place n).2.node k = if k = (s.place n).1 then n else s.node k := by
  unfold place
  cases hf : s.free with
  | nil =>
    simp only [node, size, Array.getElem?_push]
    by_cases hk : k = s.slots.size <;> simp [hk]
  | cons h free =>
    have hlt : h < s.slots.size := (hs.free_dead h (by simp [hf])).1
    simp only [node, Array.getElem?_setIfInBounds]
    by_cases hk : k = h
    · subst hk; simp [hlt]
    · simp [hk, Ne.symm hk]

theorem place_fst_ne (hs : s.FreeSlots) (n : Node) {k : Slot} (hk : (s.node k).live) : k ≠ (s.place n).1 := by
  rintro rfl
  rw [place_fst_dead hs n] at hk
  cases hk

/-! ## Links -/

@[simp] theorem size_attach (parent : Option Slot) (c : Slot) : (s.attach parent c).size = s.size := by
  unfold attach
  cases parent <;> simp [size, modify]

@[simp] theorem free_attach (parent : Option Slot) (c : Slot) : (s.attach parent c).free = s.free := by
  unfold attach
  cases parent <;> rfl

theorem roots_attach (parent : Option Slot) (c : Slot) :
    (s.attach parent c).roots = if parent = none then s.roots ++ [c] else s.roots := by
  unfold attach
  cases parent <;> rfl

theorem node_attach {parent : Option Slot} {c : Slot} (hc : c < s.size) (hp : ∀ p, parent = some p → p < s.size)
    (k : Slot) : (s.attach parent c).node k =
      { s.node k with
        parent := if k = c then parent else (s.node k).parent
        children := if parent = some k then (s.node k).children ++ [c] else (s.node k).children } := by
  unfold attach
  cases parent with
  | none =>
    show (s.modify c _).node k = _
    rw [node_modify]
    by_cases hk : k = c
    · simp [hk, hc]
    · simp [hk]
  | some p =>
    simp only [node_modify, size_modify]
    by_cases hk : k = c
    · subst hk
      by_cases hkp : k = p
      · subst hkp; simp [hc]
      · simp [hc, hkp, Ne.symm hkp]
    · by_cases hkp : k = p
      · subst hkp; simp [hk, hp k rfl]
      · simp [hk, hkp, Ne.symm hkp]

@[simp] theorem size_detach (c : Slot) : (s.detach c).size = s.size := by
  unfold detach
  cases (s.node c).parent <;> simp [size, modify]

@[simp] theorem free_detach (c : Slot) : (s.detach c).free = s.free := by
  unfold detach
  cases (s.node c).parent <;> rfl

theorem roots_detach (c : Slot) :
    (s.detach c).roots = if (s.node c).parent = none then s.roots.filter (· != c) else s.roots := by
  unfold detach
  cases (s.node c).parent <;> rfl

theorem node_detach (c k : Slot) : (s.detach c).node k =
      { s.node k with
        parent := if k = c then none else (s.node k).parent
        children := if (s.node c).parent = some k then (s.node k).children.filter (· != c)
          else (s.node k).children } := by
  unfold detach
  cases hp : (s.node c).parent with
  | none =>
    show (modify _ c _).node k = _
    rw [node_modify_of_default _ _ _ rfl]
    by_cases hk : k = c
    · subst hk; simp [node]
    · simp [hk, node]
  | some p =>
    simp only
    rw [node_modify_of_default _ _ _ rfl, node_modify_of_default _ _ _ rfl]
    by_cases hk : k = c
    · subst hk
      by_cases hkp : k = p
      · subst hkp; simp
      · simp [hkp, Ne.symm hkp]
    · by_cases hkp : k = p
      · subst hkp; simp [hk]
      · simp [hk, hkp, Ne.symm hkp]

/-! ## What keeps the free slots -/

namespace FreeSlots

theorem congr {t : Surface} (hs : s.FreeSlots) (hsize : t.size = s.size) (hfree : t.free = s.free)
    (hlive : ∀ k, (t.node k).live = (s.node k).live) : t.FreeSlots where
  free_dead k hk := by rw [hsize, hlive]; exact hs.free_dead k (hfree ▸ hk)
  nodup_free := hfree ▸ hs.nodup_free

theorem modify (hs : s.FreeSlots) (h : Slot) {f : Node → Node} (hf : ∀ n, (f n).live = n.live) :
    (s.modify h f).FreeSlots :=
  hs.congr (size_modify s h f) rfl fun k => by rw [node_modify]; split <;> simp [hf]

theorem attach (hs : s.FreeSlots) (parent : Option Slot) (c : Slot) : (s.attach parent c).FreeSlots := by
  have hchild : (s.modify c fun n => { n with parent }).FreeSlots := hs.modify c fun _ => rfl
  unfold Surface.attach
  cases parent with
  | none => exact hchild.congr rfl rfl fun _ => rfl
  | some p => exact hchild.modify p fun _ => rfl

theorem detach (hs : s.FreeSlots) (c : Slot) : (s.detach c).FreeSlots :=
  hs.congr (size_detach c) (free_detach c) fun k => by rw [node_detach]

theorem place (hs : s.FreeSlots) (n : Node) : (s.place n).2.FreeSlots where
  free_dead k hk := by
    rw [free_place] at hk
    have hne : k ≠ (s.place n).1 := fun he => place_fst_not_mem_free hs n (he ▸ hk)
    obtain ⟨hlt, hdead⟩ := hs.free_dead k (List.mem_of_mem_tail hk)
    rw [node_place hs, if_neg hne]
    exact ⟨Nat.lt_of_lt_of_le hlt (size_le_size_place n), hdead⟩
  nodup_free := by
    rw [free_place]
    exact hs.nodup_free.sublist (List.tail_sublist _)

end FreeSlots

end Surface
end BoundPage
