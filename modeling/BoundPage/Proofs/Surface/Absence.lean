import BoundPage.Proofs.Surface.Everywhere
import BoundPage.Proofs.Surface.Regions
/-!
# Data-ids that are nowhere on a page

Changes of a surface bring no data-id that is nowhere on it, but for the one that a copy is given.  This is so whatever
the links of the surface are.
-/
namespace BoundPage

namespace Surface

variable {s t : Surface} {id : String}

/-- **No live node has a data-id.** -/
def Lacks (s : Surface) (id : String) : Prop := ∀ k, (s.node k).live → (s.node k).id ≠ some id

theorem lacks_iff {key : NodeKey} : s.Lacks key.text ↔ RenderTarget.locate s key = none := s.find?_eq_none.symm

namespace Lacks

theorem iff_everywhere : s.Lacks id ↔ s.Everywhere fun n => n.id ≠ some id := Iff.rfl

/-- **A copy has no other data-ids than what is copied.** -/
theorem copyWithin (depth : Nat) (hs : s.Lacks id) (source : Slot) (parent : Option Slot) :
    (s.copyWithin depth source parent).2.Lacks id :=
  iff_everywhere.2 ((iff_everywhere.1 hs).copyWithin depth source parent)

theorem makeItem (hs : s.Lacks id) (template : Slot) {key : NodeKey} (hkey : key.text ≠ id)
    (placeholder item : String) : (ListRegion.makeItem s template key placeholder item).Lacks id := by
  rw [makeItem_eq]
  have hcopy : (s.copy template (s.node template).parent).2.Lacks id := hs.copyWithin _ _ _
  generalize (s.copy template (s.node template).parent).2 = t at hcopy ⊢
  intro k hk
  rw [node_dress] at hk ⊢
  dsimp only
  split
  · exact fun h => hkey (Option.some.inj h)
  · exact hcopy k hk

theorem makeItems {k : NodeKey} (hk : k.isTemplate) (hs : s.Lacks id)
    (hitem : ∀ i key, k.item? i = some key → key.text ≠ id) (template : Slot) (placeholder : String)
    (items : List String) (i : Nat) : (ListRegion.makeItems s template k placeholder i items).1.Lacks id :=
  ListRegion.makeItems_induction (I := fun _ t => Lacks t id) hk template placeholder items i s
    (fun _ _ item key _ hkey ht => ht.makeItem template (hitem _ key hkey) placeholder item) hs

theorem remove (hs : s.Lacks id) (h : Slot) : (s.remove h).Lacks id :=
  iff_everywhere.2 ((iff_everywhere.1 hs).remove h)

theorem destroyAll (hs : s.Lacks id) (keys : List NodeKey) : (ListRegion.destroyAll s keys).1.Lacks id :=
  ListRegion.destroyAll_induction (I := fun t => Lacks t id) keys s (fun _ n _ _ ht _ => ht.remove n) hs

theorem setText (hs : s.Lacks id) (n : Slot) (text : String) : (s.setText n text).Lacks id :=
  iff_everywhere.2 ((iff_everywhere.1 hs).setText (fun _ _ h => h) n text)

theorem alikeBut {changed : Slot → String → Prop} (hs : s.Lacks id) (h : AlikeBut changed s t) : t.Lacks id := by
  refine iff_everywhere.2 ((iff_everywhere.1 hs).of_live fun k hk => ?_)
  rw [h.node k] at hk ⊢
  exact ⟨hk, fun hid => hid⟩

end Lacks

end Surface
end BoundPage
