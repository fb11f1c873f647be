import BoundPage.Proofs.Surface.Release
/-!
# Links

On a linked surface parents and children agree, and a removed node has no part in the tree (`Linked`).  Every change
keeps the links, whichever live nodes it is made to.  Nothing is said here about cycles: a node that is moved below
itself is still linked.
-/
namespace BoundPage
namespace Surface

/-- **Parents and children agree**, a removed node has neither, and a node without a parent is listed as a root. -/
structure Linked (s : Surface) : Prop extends FreeSlots s where
  child : ∀ {p c}, s.Child p c → (s.node p).live ∧ (s.node c).live ∧ (s.node c).parent = some p
  parent : ∀ {c p}, (s.node c).parent = some p → (s.node c).live ∧ s.Child p c
  nodup_children : ∀ p, (s.node p).children.Nodup
  root : ∀ {k}, (s.node k).live → (s.node k).parent = none → k ∈ s.roots
  top : ∀ {k}, k ∈ s.roots → (s.node k).parent = none ∧ k ∉ s.free ∧ k < s.size
  nodup_roots : s.roots.Nodup

/-- Linked but for some live nodes, which are in no list of children and no roots. -/
structure Loosened (s : Surface) (loose : List Slot) : Prop extends FreeSlots s where
  child : ∀ {p c}, s.Child p c → (s.node p).live ∧ (s.node c).live ∧ (s.node c).parent = some p ∧ c ∉ loose
  parent : ∀ {c p}, (s.node c).parent = some p → (s.node c).live ∧ (c ∉ loose → s.Child p c)
  nodup_children : ∀ p, (s.node p).children.Nodup
  root : ∀ {k}, (s.node k).live → (s.node k).parent = none → k ∉ loose → k ∈ s.roots
  top : ∀ {k}, k ∈ s.roots → (s.node k).parent = none ∧ k ∉ s.free ∧ k < s.size ∧ k ∉ loose
  nodup_roots : s.roots.Nodup

/-- The two surfaces differ at most in what nodes say about themselves. -/
structure SameTree (s t : Surface) : Prop where
  size : t.size = s.size
  roots : t.roots = s.roots
  free : t.free = s.free
  live : ∀ k, (t.node k).live = (s.node k).live
  children : ∀ k, (t.node k).children = (s.node k).children
  parent : ∀ k, (t.node k).parent = (s.node k).parent

namespace SameTree

variable {s t u : Surface}

theorem refl (s : Surface) : SameTree s s := ⟨rfl, rfl, rfl, fun _ => rfl, fun _ => rfl, fun _ => rfl⟩

theorem trans (h : SameTree s t) (h' : SameTree t u) : SameTree s u where
  size := h'.size.trans h.size
  roots := h'.roots.trans h.roots
  free := h'.free.trans h.free
  live k := (h'.live k).trans (h.live k)
  children k := (h'.children k).trans (h.children k)
  parent k := (h'.parent k).trans (h.parent k)

theorem child_iff (h : SameTree s t) {a b : Slot} : t.Child a b ↔ s.Child a b := by
  unfold Child
  rw [h.children]

theorem below_iff (h : SameTree s t) {a b : Slot} : t.Below a b ↔ s.Below a b :=
  ⟨fun hb => hb.mono fun _ _ => h.child_iff.1, fun hb => hb.mono fun _ _ => h.child_iff.2⟩

theorem linked (h : SameTree s t) (hs : s.Linked) : t.Linked where
  toFreeSlots := hs.toFreeSlots.congr h.size h.free h.live
  child hc := by rw [h.live, h.live, h.parent]; exact hs.child (h.child_iff.1 hc)
  parent hp := by rw [h.parent] at hp; rw [h.live, h.child_iff]; exact hs.parent hp
  nodup_children p := by rw [h.children]; exact hs.nodup_children p
  root hl hp := by rw [h.live] at hl; rw [h.parent] at hp; rw [h.roots]; exact hs.root hl hp
  top hk := by rw [h.roots] at hk; rw [h.parent, h.free, h.size]; exact hs.top hk
  nodup_roots := by rw [h.roots]; exact hs.nodup_roots

end SameTree

theorem sameTree_modify (s : Surface) (h : Slot) {f : Node → Node}
    (hf : ∀ n, (f n).live = n.live ∧ (f n).children = n.children ∧ (f n).parent = n.parent) :
    SameTree s (s.modify h f) where
  size := size_modify s h f
  roots := rfl
  free := rfl
  live k := by rw [node_modify]; split <;> simp [hf]
  children k := by rw [node_modify]; split <;> simp [hf]
  parent k := by rw [node_modify]; split <;> simp [hf]

theorem sameTree_setStyle (s : Surface) (h : Slot) (property : String) (value : Option String) (important : Bool) :
    SameTree s (s.setStyle h property value important) := by
  refine sameTree_modify s h fun n => ?_
  cases value with
  | none => simp
  | some v => by_cases hv : v.isEmpty <;> simp [hv]

theorem substitute_eq (s : Surface) (h : Slot) (placeholder replacement : String) :
    s.substitute h placeholder replacement = s ∨ ∃ k text, k ∈ s.subtree h ∧
      Text.replaceFirst? placeholder replacement (s.node k).text = some text ∧
      s.substitute h placeholder replacement = s.modify k fun n => { n with text } := by
  unfold substitute
  simp only
  cases hf : (s.subtree h).findSome? fun k =>
      (Text.replaceFirst? placeholder replacement (s.node k).text).map
        fun text => s.modify k fun n => { n with text } with
  | none => exact .inl rfl
  | some t =>
    obtain ⟨k, hk, hr⟩ := List.exists_of_findSome?_eq_some hf
    obtain ⟨text, ht, he⟩ := Option.map_eq_some_iff.1 hr
    exact .inr ⟨k, text, hk, ht, by rw [he]; rfl⟩

theorem sameTree_substitute (s : Surface) (h : Slot) (placeholder replacement : String) :
    SameTree s (s.substitute h placeholder replacement) := by
  rcases substitute_eq s h placeholder replacement with he | ⟨k, text, -, -, he⟩
  · rw [he]; exact .refl s
  · rw [he]; exact sameTree_modify s k fun n => ⟨rfl, rfl, rfl⟩

/-- A surface whose node `h` has lost its list of children. -/
def childless (s : Surface) (h : Slot) : Surface := s.modify h fun n => { n with children := [] }

theorem size_childless (s : Surface) (h : Slot) : (s.childless h).size = s.size := size_modify s h _

theorem node_childless (s : Surface) (h k : Slot) :
    (s.childless h).node k = { s.node k with children := if k = h then [] else (s.node k).children } := by
  unfold childless
  rw [node_modify_of_default _ _ _ rfl]
  by_cases hk : k = h <;> simp [hk]

namespace Linked

variable {s t : Surface}

theorem dead_children (hs : s.Linked) {k : Slot} (hk : (s.node k).live = false) : (s.node k).children = [] := by
  rw [List.eq_nil_iff_forall_not_mem]
  intro c hc
  have := (hs.child (p := k) hc).1
  rw [hk] at this; cases this

theorem dead_parent (hs : s.Linked) {k : Slot} (hk : (s.node k).live = false) : (s.node k).parent = none := by
  cases hp : (s.node k).parent with
  | none => rfl
  | some p =>
    have := (hs.parent hp).1
    rw [hk] at this; cases this

theorem parent_live (hs : s.Linked) {c p : Slot} (hp : (s.node c).parent = some p) : (s.node p).live :=
  (hs.child (hs.parent hp).2).1

theorem unique_parent (hs : s.Linked) {a b c : Slot} (ha : s.Child a c) (hb : s.Child b c) : a = b := by
  have h1 := (hs.child ha).2.2
  rw [(hs.child hb).2.2] at h1
  exact (Option.some.inj h1).symm

theorem live_of_below (hs : s.Linked) {a b : Slot} (hb : s.Below a b) (ha : (s.node a).live) : (s.node b).live := by
  cases hb with
  | refl => exact ha
  | tail _ hab => exact (hs.child hab).2.1

theorem live_of_above (hs : s.Linked) {a b : Slot} (hb : s.Below a b) (hl : (s.node b).live) : (s.node a).live := by
  rcases hb.cases_head with rfl | ⟨c, hc, -⟩
  · exact hl
  · exact (hs.child hc).1

/-- What is below a node that is not the node itself is below the node's parent chain: its own parent is below too. -/
theorem below_parent (hs : s.Linked) {a b p : Slot} (hb : s.Below a b) (hne : b ≠ a)
    (hp : (s.node b).parent = some p) : s.Below a p := by
  cases hb with
  | refl => exact absurd rfl hne
  | tail hbc hab =>
    rw [(hs.child hab).2.2] at hp
    exact Option.some.inj hp ▸ hbc

/-! ## Nodes go -/

/-- **Releasing the loose nodes leaves a linked surface.** -/
theorem of_frees {loose : List Slot} (hs : s.Loosened loose) (h : Frees s loose t) : t.Linked where
  toFreeSlots := hs.toFreeSlots.released h.toReleased
  child {p c} hc := by
    have hc' := h.child_of_child hc
    obtain ⟨hpl, hcl, hcp, hnl⟩ := hs.child hc'
    have hpt : (t.node p).live := by
      rcases h.node p with he | ⟨-, he⟩
      · rw [he]; exact hpl
      · unfold Child at hc; rw [he] at hc; cases hc
    have hct : (t.node c).live := by
      rw [h.live_iff fun hab => (hs.child hab).1] at hpt ⊢
      refine ⟨hcl, fun d hd hb => hpt.2 d hd ?_⟩
      cases hb with
      | refl => exact absurd hd hnl
      | tail hb hab =>
        have := (hs.child hab).2.2.1
        rw [hcp] at this
        exact Option.some.inj this ▸ hb
    exact ⟨hpt, hct, by rw [h.node_of_live hct]; exact hcp⟩
  parent {c p} hp := by
    have hct : (t.node c).live := by
      rcases h.node c with he | ⟨-, he⟩
      · rw [he] at hp ⊢; exact (hs.parent hp).1
      · rw [he] at hp; cases hp
    rw [h.node_of_live hct] at hp
    have hnl : c ∉ loose := fun hc => by rw [h.gone c hc] at hct; cases hct
    have hc' := (hs.parent hp).2 hnl
    refine ⟨hct, ?_⟩
    have hpt : (t.node p).live := by
      by_contra hd
      rw [h.closed (hs.child hc').1 (by simpa using hd) hc'] at hct
      cases hct
    unfold Child
    rw [h.node_of_live hpt]
    exact hc'
  nodup_children p := by
    rcases h.node p with he | ⟨-, he⟩
    · rw [he]; exact hs.nodup_children p
    · rw [he]; exact List.nodup_nil
  root {k} hl hp := by
    rw [h.node_of_live hl] at hp
    rw [h.roots]
    exact hs.root (h.live_of_live hl) hp fun hc => by rw [h.gone k hc] at hl; cases hl
  top {k} hk := by
    rw [h.roots] at hk
    obtain ⟨hp, hf, hlt, hnl⟩ := hs.top hk
    refine ⟨?_, ?_, h.size ▸ hlt⟩
    · rcases h.node k with he | ⟨-, he⟩
      · rw [he]; exact hp
      · rw [he]; rfl
    · obtain ⟨new, he, -, hm⟩ := h.free
      rw [he, List.mem_append, hm]
      rintro (⟨hl, hd⟩ | hc)
      · obtain ⟨c, hc, hb⟩ := h.reached hl hd
        cases hb with
        | refl => exact hnl hc
        | tail _ hab =>
          rw [(hs.child hab).2.2.1] at hp
          cases hp
      · exact hf hc
  nodup_roots := by rw [h.roots]; exact hs.nodup_roots

theorem loosened_childless (hs : s.Linked) (h : Slot) : (s.childless h).Loosened (s.node h).children := by
  have hchild : ∀ {p c}, (s.childless h).Child p c ↔ p ≠ h ∧ s.Child p c :=
    fun {p c} => by
      unfold Child
      rw [node_childless]
      by_cases hp : p = h <;> simp [hp]
  exact {
    toFreeSlots := hs.toFreeSlots.modify h fun _ => rfl
    child := fun {p c} hc => by
      obtain ⟨hph, hc⟩ := hchild.1 hc
      simp only [node_childless]
      obtain ⟨h1, h2, h3⟩ := hs.child hc
      exact ⟨h1, h2, h3, fun hm => hph (hs.unique_parent hc hm)⟩
    parent := fun {c p} hp => by
      simp only [node_childless] at hp ⊢
      obtain ⟨h1, h2⟩ := hs.parent hp
      refine ⟨h1, fun hm => hchild.2 ⟨?_, h2⟩⟩
      rintro rfl
      exact hm h2
    nodup_children := fun p => by
      simp only [node_childless]
      split
      · exact List.nodup_nil
      · exact hs.nodup_children p
    root := fun {k} hl hp _ => by
      simp only [node_childless] at hl hp
      exact hs.root hl hp
    top := fun {k} hk => by
      obtain ⟨h1, h2, h3⟩ := hs.top hk
      simp only [node_childless, size_childless]
      refine ⟨h1, h2, h3, fun hm => ?_⟩
      rw [(hs.child (p := h) hm).2.2] at h1
      cases h1
    nodup_roots := hs.nodup_roots }

theorem setText (hs : s.Linked) (h : Slot) (text : String) : (s.setText h text).Linked :=
  SameTree.linked (sameTree_modify _ h (f := fun n => { n with text }) fun _ => ⟨rfl, rfl, rfl⟩)
    (of_frees (hs.loosened_childless h) (frees_releaseAll _ _))

theorem loosened_detach (hs : s.Linked) {c : Slot} (hc : (s.node c).live) : (s.detach c).Loosened [c] := by
  have hchild : ∀ {p d}, (s.detach c).Child p d ↔ d ≠ c ∧ s.Child p d := fun {p d} => by
    unfold Child
    rw [node_detach]
    by_cases hp : (s.node c).parent = some p
    · simp [hp, and_comm]
    · simp only [hp, if_false]
      refine ⟨fun hd => ⟨?_, hd⟩, fun hd => hd.2⟩
      rintro rfl
      exact hp (hs.child hd).2.2
  exact {
    toFreeSlots := hs.toFreeSlots.detach c
    child := fun {p d} hd => by
      obtain ⟨hne, hd⟩ := hchild.1 hd
      obtain ⟨h1, h2, h3⟩ := hs.child hd
      simp only [node_detach, if_neg hne]
      exact ⟨h1, h2, h3, by simpa using hne⟩
    parent := fun {d p} hp => by
      simp only [node_detach] at hp ⊢
      by_cases hd : d = c
      · rw [if_pos hd] at hp; cases hp
      · rw [if_neg hd] at hp
        exact ⟨(hs.parent hp).1, fun _ => hchild.2 ⟨hd, (hs.parent hp).2⟩⟩
    nodup_children := fun p => by
      simp only [node_detach]
      split
      · exact (hs.nodup_children p).filter _
      · exact hs.nodup_children p
    root := fun {k} hl hp hm => by
      have hk : k ≠ c := by simpa using hm
      simp only [node_detach, if_neg hk] at hl hp
      rw [roots_detach]
      split
      · simp [hs.root hl hp, hk]
      · exact hs.root hl hp
    top := fun {k} hk => by
      have hk' : k ∈ s.roots ∧ k ≠ c := by
        rw [roots_detach] at hk
        split at hk
        · simpa using hk
        · rename_i hp
          exact ⟨hk, fun he => hp (he ▸ (hs.top hk).1)⟩
      obtain ⟨h1, h2, h3⟩ := hs.top hk'.1
      rw [node_detach, free_detach, size_detach]
      simp only [if_neg hk'.2]
      exact ⟨h1, h2, h3, by simpa using hk'.2⟩
    nodup_roots := by
      rw [roots_detach]
      split
      · exact hs.nodup_roots.filter _
      · exact hs.nodup_roots }

theorem remove (hs : s.Linked) {h : Slot} (hl : (s.node h).live) : (s.remove h).Linked :=
  of_frees (hs.loosened_detach hl) (frees_release _ h)

/-! ## Nodes move -/

theorem node_append {p c : Slot} (hp : (s.node p).live) (hc : (s.node c).live) (k : Slot) :
    (s.append p c).node k =
      { s.node k with
        parent := if k = c then some p else (s.node k).parent
        children := (if (s.node c).parent = some k then (s.node k).children.filter (· != c)
          else (s.node k).children) ++ if k = p then [c] else [] } := by
  show ((s.detach c).attach (some p) c).node k = _
  rw [node_attach (by rw [size_detach]; exact lt_size_of_live s hc)
    (fun q hq => by rw [size_detach, ← Option.some.inj hq]; exact lt_size_of_live s hp), node_detach]
  by_cases hkc : k = c
  · subst hkc
    by_cases hkp : k = p
    · subst hkp; simp
    · simp [hkp, Ne.symm hkp]
  · by_cases hkp : k = p
    · subst hkp; simp [hkc]
    · simp [hkc, hkp, Ne.symm hkp]

theorem roots_append (p c : Slot) :
    (s.append p c).roots = if (s.node c).parent = none then s.roots.filter (· != c) else s.roots := by
  show ((s.detach c).attach (some p) c).roots = _
  rw [roots_attach, roots_detach]
  simp

theorem child_append (hs : s.Linked) {p c : Slot} (hp : (s.node p).live) (hc : (s.node c).live) {a b : Slot} :
    (s.append p c).Child a b ↔ b ≠ c ∧ s.Child a b ∨ a = p ∧ b = c := by
  have hno : s.Child a c → (s.node c).parent = some a := fun hd => (hs.child hd).2.2
  unfold Child at hno ⊢
  rw [node_append hp hc]
  by_cases hbc : b = c
  · subst hbc
    by_cases hpa : (s.node b).parent = some a
    · by_cases hap : a = p <;> simp [hpa, hap]
    · by_cases hap : a = p
      · simp [hap]
      · simp [hpa, hap]; exact fun hd => hpa (hno hd)
  · by_cases hpa : (s.node c).parent = some a
    · by_cases hap : a = p <;> simp [hpa, hap, hbc]
    · by_cases hap : a = p
      · rw [if_neg hpa]; simp [hap, hbc]
      · simp [hpa, hap, hbc]

theorem append (hs : s.Linked) {p c : Slot} (hp : (s.node p).live) (hc : (s.node c).live) :
    (s.append p c).Linked := by
  have hchild := fun {a b} => hs.child_append hp hc (a := a) (b := b)
  have hlive : ∀ k, ((s.append p c).node k).live = (s.node k).live := fun k => by rw [node_append hp hc]
  have hpar : ∀ k, ((s.append p c).node k).parent = if k = c then some p else (s.node k).parent := fun k => by
    rw [node_append hp hc]
  have hfree : (s.append p c).free = s.free := by
    show ((s.detach c).attach (some p) c).free = _
    rw [free_attach, free_detach]
  have hsize : (s.append p c).size = s.size := by
    show ((s.detach c).attach (some p) c).size = _
    rw [size_attach, size_detach]
  exact {
    toFreeSlots := (hs.toFreeSlots.detach c).attach (some p) c
    child := fun {a b} hab => by
      simp only [hlive, hpar]
      rcases hchild.1 hab with ⟨hne, hab⟩ | ⟨rfl, rfl⟩
      · rw [if_neg hne]; exact hs.child hab
      · simp [hp, hc]
    parent := fun {a b} hab => by
      simp only [hpar] at hab
      rw [hlive, hchild]
      by_cases hac : a = c
      · rw [if_pos hac] at hab
        exact ⟨hac ▸ hc, .inr ⟨(Option.some.inj hab).symm, hac⟩⟩
      · rw [if_neg hac] at hab
        exact ⟨(hs.parent hab).1, .inl ⟨hac, (hs.parent hab).2⟩⟩
    nodup_children := fun k => by
      rw [node_append hp hc]
      simp only
      have hf : (if (s.node c).parent = some k then (s.node k).children.filter (· != c)
          else (s.node k).children).Nodup := by
        split
        · exact (hs.nodup_children k).filter _
        · exact hs.nodup_children k
      rw [List.nodup_append]
      refine ⟨hf, by split <;> simp, fun a ha b hb hab => ?_⟩
      subst hab
      by_cases hk : k = p
      · rw [if_pos hk, List.mem_singleton] at hb
        subst hb
        split at ha
        · simp at ha
        · rename_i hpk
          exact hpk (hs.child (p := k) ha).2.2
      · rw [if_neg hk] at hb; cases hb
    root := fun {k} hl hpk => by
      rw [hlive] at hl
      rw [hpar] at hpk
      by_cases hkc : k = c
      · rw [if_pos hkc] at hpk; cases hpk
      · rw [if_neg hkc] at hpk
        rw [roots_append]
        split
        · simp [hs.root hl hpk, hkc]
        · exact hs.root hl hpk
    top := fun {k} hk => by
      have hk' : k ∈ s.roots ∧ k ≠ c := by
        rw [roots_append] at hk
        split at hk
        · simpa using hk
        · rename_i hpc
          exact ⟨hk, fun he => hpc (he ▸ (hs.top hk).1)⟩
      rw [hpar, if_neg hk'.2, hfree, hsize]
      exact hs.top hk'.1
    nodup_roots := by
      rw [roots_append]
      split
      · exact hs.nodup_roots.filter _
      · exact hs.nodup_roots }

end Linked
end Surface
end BoundPage
