import BoundPage.Proofs.Surface.Forest
/-!
# What all nodes say about themselves

Something that holds of all live nodes, apart from their places in the trees, is kept by every change that keeps it on
the nodes that it makes or alters.  This is so whatever the links of the surface are.
-/
namespace BoundPage
namespace Surface

variable {s t : Surface} {P : Node → Prop}

/-- **It holds of all live nodes**, as far as they themselves go. -/
def Everywhere (P : Node → Prop) (s : Surface) : Prop := ∀ k, (s.node k).live → P (s.node k).own

/-- Taking a slot changes no other one. -/
theorem node_place_or (s : Surface) (n : Node) (k : Slot) :
    (s.place n).2.node k = n ∨ (s.place n).2.node k = s.node k := by
  unfold place
  cases s.free with
  | nil =>
    unfold node
    rw [Array.getElem?_push]
    split
    · exact .inl rfl
    · exact .inr rfl
  | cons h free =>
    unfold node
    rw [Array.getElem?_setIfInBounds]
    split
    · next hk =>
      split
      · exact .inl rfl
      · next hlt => exact .inr (node_of_size_le s (hk ▸ Nat.le_of_not_lt hlt)).symm
    · exact .inr rfl

namespace Everywhere

/-- Nothing has come to life, and it still holds of what is left. -/
theorem of_live (hs : s.Everywhere P)
    (h : ∀ k, (t.node k).live → (s.node k).live ∧ (P (s.node k).own → P (t.node k).own)) : t.Everywhere P := by
  intro k hk
  obtain ⟨hl, hkeep⟩ := h k hk
  exact hkeep (hs k hl)

theorem of_own (hs : s.Everywhere P) (h : ∀ k, (t.node k).live → (s.node k).live ∧ (t.node k).own = (s.node k).own) :
    t.Everywhere P := by
  refine hs.of_live fun k hk => ?_
  obtain ⟨hl, hown⟩ := h k hk
  rw [hown]
  exact ⟨hl, id⟩

theorem modify (hs : s.Everywhere P) (h : Slot) {f : Node → Node}
    (hf : ∀ n, (f n).live = n.live ∧ (P n.own → P (f n).own)) : (s.modify h f).Everywhere P := by
  refine hs.of_live fun k hk => ?_
  rw [node_modify] at hk ⊢
  split at hk
  · next hc =>
    rw [if_pos hc]
    exact ⟨(hf _).1 ▸ hk, (hf _).2⟩
  · next hc =>
    rw [if_neg hc]
    exact ⟨hk, id⟩

theorem place (hs : s.Everywhere P) {n : Node} (hn : n.live → P n.own) : (s.place n).2.Everywhere P := by
  intro k hk
  rcases node_place_or s n k with he | he
  · rw [he] at hk ⊢
    exact hn hk
  · rw [he] at hk ⊢
    exact hs k hk

theorem attach (hs : s.Everywhere P) (parent : Option Slot) (child : Slot) : (s.attach parent child).Everywhere P := by
  have hchild : (s.modify child fun n => { n with parent }).Everywhere P := hs.modify child fun _ => ⟨rfl, id⟩
  unfold Surface.attach
  cases parent with
  | none => exact hchild
  | some p => exact hchild.modify p fun _ => ⟨rfl, id⟩

theorem sprout (hs : s.Everywhere P) {n : Node} (hn : n.live → P n.own) (parent : Option Slot) :
    (s.sprout n parent).2.Everywhere P :=
  (hs.place hn).attach parent _

/-- **A copy says what is copied.** -/
theorem copyWithin : ∀ (depth : Nat) {s : Surface} (_ : s.Everywhere P) (source : Slot) (parent : Option Slot),
    (s.copyWithin depth source parent).2.Everywhere P
  | 0, s, hs, source, parent => hs.sprout (n := s.bare source) (hs source) parent
  | depth + 1, s, hs, source, parent => by
    rw [copyWithin_succ]
    exact List.foldlRecOn (motive := Everywhere P) _ _ (hs.sprout (n := s.bare source) (hs source) parent)
      fun t ht c _ => ht.copyWithin depth c _

theorem remove (hs : s.Everywhere P) (h : Slot) : (s.remove h).Everywhere P :=
  hs.of_own fun _ hk => ⟨live_of_live_remove hk, own_remove hk⟩

theorem append (hs : s.Everywhere P) (parent child : Slot) : (s.append parent child).Everywhere P := by
  refine Everywhere.attach (hs.of_own fun k hk => ?_) (some parent) child
  rw [node_detach] at hk ⊢
  exact ⟨hk, rfl⟩

theorem setText (hs : s.Everywhere P) (htext : ∀ n text, P n → P { n with text }) (n : Slot) (text : String) :
    (s.setText n text).Everywhere P := by
  refine hs.of_live fun k hk => ?_
  obtain ⟨hl, hnode⟩ := node_setText hk
  rw [hnode]
  exact ⟨hl, htext _ _⟩

mutual

/-- **Mounted nodes say what their descriptions say.** -/
theorem mount {s : Surface} (hs : s.Everywhere P) (hm : ∀ m, P (Node.ofMarkup m)) (parent : Option Slot) :
    ∀ m : Markup, (s.mount parent m).2.Everywhere P
  | ⟨tag, id, externalId, text, attributes, styles, children⟩ => by
    let n : Node := .ofMarkup { tag, id, externalId, text, attributes, styles }
    have hn : (s.sprout n parent).2.Everywhere P :=
      hs.sprout (n := n) (fun _ => hm { tag, id, externalId, text, attributes, styles }) parent
    have hchildren := hn.mountAll hm (some (s.sprout n parent).1) children
    exact hchildren

theorem mountAll {s : Surface} (hs : s.Everywhere P) (hm : ∀ m, P (Node.ofMarkup m)) (parent : Option Slot) :
    ∀ ms : List Markup, (s.mountAll parent ms).Everywhere P
  | [] => hs
  | m :: ms => (hs.mount hm parent m).mountAll hm parent ms

end

theorem empty : (∅ : Surface).Everywhere P := by
  intro k hk
  rw [node_of_size_le ∅ (Nat.zero_le k)] at hk
  cases hk

end Everywhere
end Surface
end BoundPage
