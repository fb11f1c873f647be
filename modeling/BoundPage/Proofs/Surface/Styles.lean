import BoundPage.Layout
import BoundPage.Proofs.Surface.Links
import BoundPage.Proofs.Tables
/-!
# Styles

Setting and spacing change styles only, and only few of them (`Restyled`): a property of one node, or the one property
of the parent's rule.
-/
namespace BoundPage
open RenderTarget
namespace Surface

/-- **Only styles differ**, and of these only some properties of some nodes. -/
structure AlikeBut (changed : Slot → String → Prop) (s t : Surface) : Prop where
  size : t.size = s.size
  roots : t.roots = s.roots
  free : t.free = s.free
  node : ∀ k, t.node k = { s.node k with styles := (t.node k).styles }
  entry : ∀ k property, ¬ changed k property → (t.node k).styles.get? property = (s.node k).styles.get? property

/-- **Only styles have changed**, and of these only some properties of some nodes.  Where none has changed the order is
the same, too. -/
structure Restyled (changed : Slot → String → Prop) (s t : Surface) : Prop extends AlikeBut changed s t where
  styles : ∀ k, (∀ property, ¬ changed k property) → (t.node k).styles = (s.node k).styles

variable {changed changed' : Slot → String → Prop} {s t u : Surface}

namespace AlikeBut

theorem refl (changed : Slot → String → Prop) (s : Surface) : AlikeBut changed s s :=
  ⟨rfl, rfl, rfl, fun _ => rfl, fun _ _ _ => rfl⟩

theorem trans (h : AlikeBut changed s t) (h' : AlikeBut changed t u) : AlikeBut changed s u where
  size := h'.size.trans h.size
  roots := h'.roots.trans h.roots
  free := h'.free.trans h.free
  node k := by rw [h'.node k, h.node k]
  entry k property hc := (h'.entry k property hc).trans (h.entry k property hc)

theorem mono (hc : ∀ k property, changed k property → changed' k property) (h : AlikeBut changed s t) :
    AlikeBut changed' s t :=
  { h with entry := fun k property hn => h.entry k property fun hk => hn (hc k property hk) }

theorem style (h : AlikeBut changed s t) (k : Slot) (property : String) (hc : ¬ changed k property) :
    style t k property = style s k property := by
  unfold Surface.style
  rw [h.entry k property hc]

theorem sameTree (h : AlikeBut changed s t) : SameTree s t where
  size := h.size
  roots := h.roots
  free := h.free
  live k := by rw [h.node]
  children k := by rw [h.node]
  parent k := by rw [h.node]

end AlikeBut

namespace Restyled

theorem refl (changed : Slot → String → Prop) (s : Surface) : Restyled changed s s := ⟨.refl changed s, fun _ _ => rfl⟩

theorem trans (h : Restyled changed s t) (h' : Restyled changed t u) : Restyled changed s u :=
  ⟨h.toAlikeBut.trans h'.toAlikeBut, fun k hc => (h'.styles k hc).trans (h.styles k hc)⟩

theorem mono (hc : ∀ k property, changed k property → changed' k property) (h : Restyled changed s t) :
    Restyled changed' s t :=
  ⟨h.toAlikeBut.mono hc, fun k hn => h.styles k fun property hk => hn property (hc k property hk)⟩

theorem foldl {ι : Type} {f : Surface → ι → Surface} :
    ∀ (is : List ι) (s : Surface), (∀ t, ∀ i ∈ is, Restyled changed t (f t i)) → Restyled changed s (is.foldl f s)
  | [], s, _ => .refl changed s
  | i :: is, s, h =>
    (h s i List.mem_cons_self).trans (foldl is (f s i) fun t j hj => h t j (List.mem_cons_of_mem i hj))

end Restyled

theorem restyled_setStyle (s : Surface) (n : Slot) (property : String) (value : Option String) (important : Bool) :
    Restyled (fun k q => k = n ∧ q = property) s (setStyle s n property value important) where
  size := size_modify s n _
  roots := rfl
  free := rfl
  node k := by
    unfold setStyle
    rw [node_modify]
    split
    · cases value with
      | none => rfl
      | some v => dsimp only; split <;> rfl
    · rfl
  entry k q hq := by
    unfold setStyle
    rw [node_modify]
    split
    · next hk =>
      have hne : q ≠ property := fun h => hq ⟨hk.1, h⟩
      cases value with
      | none => simp [Table.get?_erase, hne]
      | some v => dsimp only; split <;> simp [Table.get?_erase, Table.get?_insert, hne]
    · rfl
  styles k hq := by
    unfold setStyle
    rw [node_modify, if_neg fun hk => hq property ⟨hk.1, rfl⟩]

theorem style_setStyle_self (s : Surface) {n : Slot} (hn : (s.node n).live) (property : String) {value : String}
    (hv : value.isEmpty = false) (important : Bool) :
    style (setStyle s n property (some value) important) n property = some value := by
  unfold style setStyle
  rw [node_modify_self s _ (lt_size_of_live s hn)]
  simp [hv, Table.get?_insert_self]

theorem node_clear {n : Slot} (hn : (s.node n).live) (property : String) (important : Bool) (k : Slot) :
    (s.setStyle n property none important).node k =
      if k = n then { s.node k with styles := (s.node k).styles.erase property } else s.node k := by
  unfold setStyle
  rw [node_modify]
  simp only [lt_size_of_live s hn, and_true]

/-- A property set on some nodes, one after the other. -/
theorem node_setAll {property value : String} (hvalue : value ≠ "") : ∀ (cs : List Slot) {s : Surface},
    (∀ c ∈ cs, (s.node c).live) → ∀ k,
    (cs.foldl (fun s c => s.setStyle c property (some value) false) s).node k =
      if k ∈ cs then { s.node k with styles := (s.node k).styles.insert property ⟨value, false⟩ } else s.node k
  | [], _, _, _ => rfl
  | c :: cs, s, hlive, k => by
    have hc : ∀ k, (s.setStyle c property (some value) false).node k =
        if k = c then { s.node k with styles := (s.node k).styles.insert property ⟨value, false⟩ } else s.node k :=
      fun k => by
        unfold setStyle
        rw [node_modify]
        simp only [lt_size_of_live s (hlive c List.mem_cons_self), and_true, String.isEmpty_iff, hvalue, if_false]
    have hrest : ∀ d ∈ cs, ((s.setStyle c property (some value) false).node d).live := fun d hd =>
      ((restyled_setStyle s c property (some value) false).sameTree.live d).trans (hlive d (List.mem_cons_of_mem c hd))
    rw [List.foldl_cons, node_setAll hvalue cs hrest, hc]
    by_cases hk : k ∈ cs
    · by_cases hkc : k = c
      · simp [hkc, Table.insert_insert]
      · simp [hk, hkc]
    · simp [hk]

theorem restyled_spaceChildren (s : Surface) (property value : String) (children : List Slot) :
    Restyled (fun k q => k ∈ children ∧ q = property) s (Layout.spaceChildren s property value children) := by
  have hset : ∀ {c}, c ∈ children → ∀ (t : Surface) (v : Option String),
      Restyled (fun k q => k ∈ children ∧ q = property) t (setStyle t c property v false) := fun {c} hc t v =>
    (restyled_setStyle t c property v false).mono fun k q (h : k = c ∧ q = property) => ⟨h.1 ▸ hc, h.2⟩
  unfold Layout.spaceChildren
  split
  · exact .refl _ s
  · next first later hshown =>
    have hsub : first :: later ⊆ children := hshown ▸ (List.dropWhile_sublist _).subset
    exact (hset (hsub List.mem_cons_self) s none).trans
      (Restyled.foldl _ _ fun t c hc => hset (hsub (List.mem_cons_of_mem first hc)) t (some value))

/-- The property of a parent's spacing rule. -/
def spacingProperty? (s : Surface) (k : Slot) : Option String := (Layout.spacingRule? s k).map Prod.fst

theorem refreshSpacing_of_no_parent {n : Slot} (hp : (s.node n).parent = none) : Layout.refreshSpacing s n = s := by
  unfold Layout.refreshSpacing
  rw [show RenderTarget.parent s n = none from hp]

theorem refreshSpacing_of_parent {n parent : Slot} (hp : (s.node n).parent = some parent) : Layout.refreshSpacing s n =
    match Layout.spacingRule? s parent with
    | none => s
    | some (property, value) => Layout.spaceChildren s property value (s.node parent).children := by
  unfold Layout.refreshSpacing
  rw [show RenderTarget.parent s n = some parent from hp]
  rfl

theorem restyled_refreshSpacing (s : Surface) (n : Slot) :
    Restyled (fun k q => ∃ p, (s.node n).parent = some p ∧ s.Child p k ∧ spacingProperty? s p = some q) s
      (Layout.refreshSpacing s n) := by
  unfold Layout.refreshSpacing
  split
  · exact .refl _ s
  · next p hp =>
    split
    · exact .refl _ s
    · next property value hr =>
      exact (restyled_spaceChildren s property value _).mono fun k q (hq : s.Child p k ∧ q = property) =>
        ⟨p, hp, hq.1, by unfold spacingProperty?; rw [hr, hq.2]; rfl⟩

end Surface
end BoundPage
