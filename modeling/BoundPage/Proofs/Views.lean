import BoundPage.External.Placement
import BoundPage.Layout
import BoundPage.ListRegion
import BoundPage.Style.Effect
/-!
# Views of pages

Two kinds of page are alike if one can be looked at as the other: what is read is the same on both sides, and every
change comes to the same (`IsView`).  A style property that is empty on one side may be missing on the other, as an
empty style counts as none everywhere.

All that is done to a page is made of these operations, and so it comes to the same, too.
-/
namespace BoundPage
open RenderTarget

/-! ## Styles as they count -/

namespace RenderTarget

/-- A style value, unless it is empty. -/
def counted (v : Option String) : Option String := v.filter fun v => !v.isEmpty

theorem counted_eq_some {u : Option String} {v : String} (hv : v.isEmpty = false) :
    counted u = some v ↔ u = some v := by
  unfold counted
  rw [Option.filter_eq_some_iff]
  exact and_iff_left (by simp [hv])

theorem getD_counted (v : Option String) : (counted v).getD "" = v.getD "" := by
  cases v with
  | none => rfl
  | some v =>
    by_cases hv : v.isEmpty
    · simp [counted, Option.filter, String.isEmpty_iff.1 hv]
    · simp [counted, Option.filter, hv]

theorem isSome_counted (v : Option String) : (counted v).isSome = v.any fun v => !v.isEmpty := by
  cases v with
  | none => rfl
  | some v => by_cases hv : v.isEmpty <;> simp [counted, Option.filter, hv]

theorem counted_counted (v : Option String) : counted (counted v) = counted v := by
  cases v with
  | none => rfl
  | some v => by_cases hv : v.isEmpty <;> simp [counted, Option.filter, hv]

end RenderTarget

/-- The edits of a parameter depend on the styles as they count. -/
theorem StyleEdit.forParameter_congr {look look' : String → Option String}
    (h : ∀ property, counted (look property) = counted (look' property)) :
    forParameter look = forParameter look' := by
  have hequals : ∀ property {v : String}, v.isEmpty = false → (look property = some v ↔ look' property = some v) :=
    fun property v hv => by rw [← counted_eq_some hv, h property, counted_eq_some hv]
  have hget : ∀ property, (look property).getD "" = (look' property).getD "" := fun property => by
    rw [← getD_counted, h property, getD_counted]
  have hany : ∀ property, ((look property).any fun v => !v.isEmpty) = (look' property).any fun v => !v.isEmpty :=
    fun property => by rw [← isSome_counted, h property, isSome_counted]
  have halign : align look = align look' := by
    unfold align
    simp only [hequals "position" (by decide : "fixed".isEmpty = false),
      hequals "position" (by decide : "absolute".isEmpty = false)]
  have himage : backgroundImage look = backgroundImage look' := by
    funext value
    unfold backgroundImage
    rw [hany "background-repeat"]
  unfold forParameter
  rw [halign, himage, hget "box-shadow"]

/-! ## Pages -/

variable {S T : Type} [RenderTarget S] [RenderTarget T]

/-- **A page can be looked at as one of another kind**, which reads the same and changes in the same way. -/
structure IsView (view : S → T) : Prop where
  locate (s : S) (k : NodeKey) : locate (view s) k = locate s k
  locateExternal (s : S) (k : NodeKey) : locateExternal (view s) k = locateExternal s k
  parent (s : S) (n : Nat) : parent (view s) n = parent s n
  children (s : S) (n : Nat) : children (view s) n = children s n
  attributeOf (s : S) (n : Nat) (name : String) : attributeOf (view s) n name = attributeOf s n name
  style (s : S) (n : Nat) (property : String) : counted (style (view s) n property) = counted (style s n property)
  setStyle (s : S) (n : Nat) (property : String) (value : Option String) (important : Bool) :
    setStyle (view s) n property value important = view (setStyle s n property value important)
  setText (s : S) (n : Nat) (text : String) : setText (view s) n text = view (setText s n text)
  cloneNode (s : S) (n : Nat) (k : NodeKey) :
    cloneNode (view s) n k = ((cloneNode s n k).1, view (cloneNode s n k).2)
  substituteText (s : S) (n : Nat) (placeholder replacement : String) :
    substituteText (view s) n placeholder replacement = view (substituteText s n placeholder replacement)
  remove (s : S) (n : Nat) : remove (view s) n = view (remove s n)
  appendChild (s : S) (parent child : Nat) : appendChild (view s) parent child = view (appendChild s parent child)

namespace IsView

variable {view : S → T} (hv : IsView view)
include hv

theorem require (s : S) (k : NodeKey) : RenderTarget.require (view s) k = RenderTarget.require s k := by
  unfold RenderTarget.require
  rw [hv.locate]

/-! ### Showing and spacing -/

theorem isVisible (s : S) (n : Nat) : isVisible (view s) n = isVisible s n := by
  have hnone : RenderTarget.style (view s) n "display" = some "none" ↔
      RenderTarget.style s n "display" = some "none" := by
    rw [← counted_eq_some (by decide), hv.style, counted_eq_some (by decide)]
  unfold RenderTarget.isVisible
  rw [Bool.eq_iff_iff, bne_iff_ne, bne_iff_ne]
  exact not_congr hnone

theorem hasStyle (s : S) (n : Nat) (property : String) : hasStyle (view s) n property = hasStyle s n property := by
  unfold RenderTarget.hasStyle
  rw [← isSome_counted, hv.style, isSome_counted]

theorem detect (s : S) (n : Nat) : Layout.detect (view s) n = Layout.detect s n := by
  unfold Layout.detect
  simp only [hv.hasStyle]

theorem spaceChildren (s : S) (property value : String) (children : List Nat) :
    Layout.spaceChildren (view s) property value children = view (Layout.spaceChildren s property value children) := by
  unfold Layout.spaceChildren
  simp only [hv.isVisible]
  split
  · rfl
  · rw [hv.setStyle]
    exact List.foldl_hom view fun s c => hv.setStyle s c property (some value) false

theorem refreshSpacing (s : S) (n : Nat) : Layout.refreshSpacing (view s) n = view (Layout.refreshSpacing s n) := by
  unfold Layout.refreshSpacing Layout.spacingRule?
  rw [hv.parent]
  cases RenderTarget.parent s n with
  | none => rfl
  | some p =>
    dsimp only
    rw [hv.attributeOf]
    split
    · rfl
    · rw [hv.children, hv.spaceChildren]

theorem applyAll (s : S) (n : Nat) (edits : List StyleEdit) :
    StyleEdit.applyAll (view s) n edits = view (StyleEdit.applyAll s n edits) :=
  List.foldl_hom view fun s e => hv.setStyle s n e.property e.value e.important

theorem inlineStyles (s : S) (n : Nat) (parameter : String) (value : Option String) (important : Bool) :
    inlineStyles (view s) n parameter value important = view (inlineStyles s n parameter value important) := by
  unfold BoundPage.inlineStyles
  rw [StyleEdit.forParameter_congr (hv.style s n), hv.applyAll]

/-! ### Lists -/

theorem makeItem (s : S) (template : Nat) (key : NodeKey) (placeholder item : String) :
    ListRegion.makeItem (view s) template key placeholder item =
      view (ListRegion.makeItem s template key placeholder item) := by
  unfold ListRegion.makeItem
  rw [hv.cloneNode]
  dsimp only
  rw [hv.setStyle, hv.substituteText]

theorem makeItems (template : Nat) (templateKey : NodeKey) (placeholder : String) :
    ∀ (items : List String) (s : S) (index : Nat),
      ListRegion.makeItems (view s) template templateKey placeholder index items =
        Prod.map view id (ListRegion.makeItems s template templateKey placeholder index items)
  | [], _, _ => rfl
  | item :: items, s, index => by
    unfold ListRegion.makeItems
    cases templateKey.item? index with
    | none => rfl
    | some key =>
      dsimp only
      rw [hv.makeItem, makeItems template templateKey placeholder items]
      rfl

theorem materialize (s : S) (template : Nat) (templateKey : NodeKey) (value placeholder : String) :
    ListRegion.materialize (view s) template templateKey value placeholder =
      Prod.map view id (ListRegion.materialize s template templateKey value placeholder) := by
  unfold ListRegion.materialize
  rw [hv.makeItems]
  rfl

theorem destroyItem (s : S) (key : NodeKey) :
    ListRegion.destroyItem (view s) key = Prod.map view id (ListRegion.destroyItem s key) := by
  unfold ListRegion.destroyItem
  rw [hv.locate]
  cases RenderTarget.locate s key with
  | none => rfl
  | some n =>
    dsimp only
    rw [hv.remove]
    rfl

theorem destroyAll : ∀ (keys : List NodeKey) (s : S),
    ListRegion.destroyAll (view s) keys = Prod.map view id (ListRegion.destroyAll s keys)
  | [], _ => rfl
  | key :: keys, s => by
    unfold ListRegion.destroyAll
    rw [hv.destroyItem]
    dsimp only [Prod.map]
    rw [destroyAll keys]
    rfl

end IsView

/-! ## External children -/

namespace ExternalChildren

def Progress.seen (view : S → T) (p : Progress S) : Progress T := ⟨view p.surface, p.children, p.placed, p.events⟩

end ExternalChildren

namespace IsView

variable {view : S → T} (hv : IsView view)
include hv

theorem isShown (s : S) (id element : String) :
    ExternalChildren.isShown (view s) id element = ExternalChildren.isShown s id element := by
  unfold ExternalChildren.isShown
  rw [hv.locate]
  exact congrArg (Option.any · _) (funext (hv.isVisible s))

theorem conditionHolds (s : S) (id : String) (condition : List String) :
    ExternalChildren.conditionHolds (view s) id condition = ExternalChildren.conditionHolds s id condition := by
  unfold ExternalChildren.conditionHolds
  exact congrArg condition.all (funext (hv.isShown s id))

theorem conditionEvents (s : S) (id : String) (condition : List String) :
    ExternalChildren.conditionEvents (view s) id condition = ExternalChildren.conditionEvents s id condition := by
  unfold ExternalChildren.conditionEvents
  simp only [hv.isShown, hv.locate]

theorem moveUnder (slot : Nat) (s : S) (n : Nat) :
    ExternalChildren.moveUnder slot (view s) n = view (ExternalChildren.moveUnder slot s n) := by
  unfold ExternalChildren.moveUnder
  rw [hv.parent, hv.appendChild]
  split <;> rfl

theorem progress_next (id : String) (p : ExternalChildren.Progress S) (r : Registration) :
    (p.seen view).next id r = (p.next id r).seen view := by
  unfold ExternalChildren.Progress.next ExternalChildren.Progress.seen
  dsimp only
  rw [hv.conditionHolds, hv.conditionEvents, hv.locate]
  split
  · rfl
  · split
    · rfl
    · cases RenderTarget.locate p.surface ⟨r.slot, id⟩ with
      | none => rfl
      | some slot =>
        dsimp only
        rw [hv.locateExternal, List.foldl_hom view (hv.moveUnder slot)]

theorem placePending (c : ExternalChildren) (s : S) (id : String) :
    c.placePending (view s) id = (c.placePending s id).seen view := by
  have hbegin : ({ surface := view s, children := c } : ExternalChildren.Progress T) =
      ExternalChildren.Progress.seen view { surface := s, children := c } := rfl
  unfold ExternalChildren.placePending
  rw [hbegin, List.foldl_hom _ (hv.progress_next id)]

end IsView
end BoundPage
