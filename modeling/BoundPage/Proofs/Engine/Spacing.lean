import BoundPage.Proofs.Engine.Idle
import BoundPage.Proofs.Engine.Repeated
import BoundPage.Proofs.Write.Spacing
/-!
# When spacing survives

An operation keeps the rows of a page spaced, all the time, exactly if no list that is rebuilt and no node that is
placed breaks one (`spaced_iff_keepsSpacing`).  Showing, hiding and texts never do; style parameters are kept from it if
they are not about the spacing or the visibility of nodes.
-/
namespace BoundPage
open RenderTarget

namespace ExternalChildren

variable {t : Surface} {slot n : Slot} {property : String}

theorem wellSpaced_moveUnder_iff (hw : t.WellSpaced property) (ht : t.Linked) (hs : (t.node slot).live)
    (hn : (t.node n).live) :
    (moveUnder slot t n).WellSpaced property ↔ ((t.node n).parent ≠ some slot → t.MoveFits property slot n) := by
  unfold moveUnder
  split
  · next hp => exact iff_of_true hw fun hmoves => absurd hp hmoves
  · next hp =>
    have hmoves : (t.node n).parent ≠ some slot := hp
    exact (Surface.wellSpaced_append_iff hw ht hs hn hmoves).trans ⟨fun h _ => h, fun h => h hmoves⟩

end ExternalChildren

namespace Engine

variable {H W : Type} {g : Engine Surface H W} {op : Operation} {property : String}

/-- **No list that an operation rebuilds breaks a row, and no node that it moves.** -/
structure KeepsSpacing (g : Engine Surface H W) (op : Operation) (property : String) : Prop where
  lists : ∀ p, g.passOf? op = some p → ∀ e left st template, p.At g.surface e (.value :: left) st →
    p.Rebuilds (p.key e.1) st.surface template → p.ListFits (p.key e.1) st.table st.surface template property
  places : ∀ c, g.placementOf? op = some c → ∀ r slot n t, c.children.Moves c.page c.instanceId r slot n t →
    (t.node n).parent ≠ some slot → t.MoveFits property slot n

/-- **An operation goes through well spaced pages exactly if it keeps the spacing.** -/
theorem wellSpaced_iff_keepsSpacing (he : g.effector = inlineStyles) (hs : g.surface.Linked)
    (hproperty : property ≠ "display") (hstyles : ∀ p ∈ g.passOf? op, p.Unstyled property)
    (hw : g.surface.WellSpaced property) :
    (∀ s, g.GoesThrough op s → s.WellSpaced property) ↔ g.KeepsSpacing op property := by
  have hlinked : ∀ {s}, g.GoesThrough op s → s.Linked := linked_goesThrough he hs
  constructor
  · intro h
    refine ⟨fun p hp e left st template hst hr => ?_, fun c hc r slot n t hm => ?_⟩
    · obtain ⟨st', hst', hst's⟩ := hst.rebuilt hr
      have hrebuilt := h _ (.stage hp hst')
      rw [hst's] at hrebuilt
      exact (Pass.wellSpaced_refilled_iff (h _ (.stage hp hst)) (hlinked (.stage hp hst)) hproperty hr).1 hrebuilt
    · exact (ExternalChildren.wellSpaced_moveUnder_iff (h _ (.before hc hm)) (hlinked (.before hc hm)) hm.live.1
        hm.live.2).1 (h _ (.moved hc hm))
  · intro h s hgo
    refine (goesThrough_induction (I := fun s => s.Linked ∧ s.WellSpaced property) ⟨hs, hw⟩
      (fun p hp e d left st st' hst hI hok => ?_) (fun c hc r slot n t hm hI => ?_) hgo).2
    · have hchange := Pass.change_of_applyOne hok
      have hpe := (effector_passOf? hp).trans he
      refine ⟨hchange.linked hpe hI.1, hchange.wellSpaced hpe hI.2 hI.1 hproperty (fun parameter hpar => ?_)
        fun template hd hr => ?_⟩
      · exact hstyles p hp parameter (DependencyTable.mem_parameters hst.mem hst.mem_left hpar)
      · subst hd
        exact h.lists p hp e left st template hst hr
    · exact ⟨ExternalChildren.linked_moveUnder hI.1 hm.live.1 hm.live.2,
        (ExternalChildren.wellSpaced_moveUnder_iff hI.2 hI.1 hm.live.1 hm.live.2).2 (h.places c hc r slot n t hm)⟩

/-- Where no list depends on the variable and no registration has its turn, spacing is kept. -/
theorem keepsSpacing_of_plain
    (hplain : ∀ p ∈ g.passOf? op, ∀ element ∈ p.dependents.names, Element.isTemplate element = false)
    (hidle : ∀ c ∈ g.placementOf? op, c.children.Idle c.page c.instanceId) : g.KeepsSpacing op property where
  lists p hp e left st template hst hr := by
    have hname := hplain p hp e.1 (List.mem_map_of_mem hst.mem)
    rw [show Element.isTemplate e.1 = true from hr.isTemplate] at hname
    cases hname
  places c hc r slot n t hm := absurd hm (hidle c hc).not_moves

/-- **Spacing survives an operation exactly if it keeps the spacing**, whatever operations have led to the page.  The
pages that an operation goes through are all well spaced then, the last one among them. -/
theorem spacing_survives_iff {starts : String → Instance → Prop} {page : List Markup} {options : Options}
    {handlers : Handlers H} {host : W} (hrun : Runs starts (mounted page options handlers host) g)
    (hproperty : property ≠ "display") (hstyles : ∀ p ∈ g.passOf? op, p.Unstyled property)
    (hw : g.surface.WellSpaced property) :
    (∀ s, g.GoesThrough op s → s.WellSpaced property) ↔ g.KeepsSpacing op property := by
  obtain ⟨ops, -, hpage⟩ := hrun
  have hs : (mounted page options handlers host).surface.Linked := (Surface.forest_ofMarkup page).toLinked
  refine wellSpaced_iff_keepsSpacing ?_ ?_ hproperty hstyles hw
  · rw [← hpage.effector, effector_after]
    rfl
  · rw [← hpage.surface]
    exact linked_after rfl hs ops

/-! ## Spaced pages -/

/-- A group with a margin between its children. -/
def spacedGroup (children : List Markup) : List Markup :=
  [{ tag := "div", id := "group:main", attributes := .ofList [("spacing", "margin-left: 4px")], children }]

def marginLeft : String × String := ("margin-left", "4px")

def spacedChild (element : String) (styles : List (String × String)) : Markup :=
  { tag := "p", id := (NodeKey.mk element "main").text, styles := .ofList styles }

def hiddenTemplate (styles : List (String × String)) : Markup :=
  spacedChild "list:dummy" (("display", "none") :: styles)

def writeX (value : String) : Operation := .write "main" "x" (.text value)

def headedPage : List Markup := spacedGroup [spacedChild "heading" [], hiddenTemplate [marginLeft]]

/-- The heading of a list is not spaced, and its template is. -/
def headedList : Engine Surface Empty Unit :=
  bound headedPage [("list:dummy", [.value])] ∅

theorem passOf?_headedList {p : Pass Surface} {value : String} (h : headedList.passOf? (writeX value) = some p) :
    p = { effector := inlineStyles, options := {}, instanceId := "main", value,
          dependents := .ofList [("list:dummy", [.value])] } := (Option.some.inj h).symm

theorem keepsSpacing_headedList : headedList.KeepsSpacing (writeX "[\"a\",\"b\"]") "margin-left" where
  lists := by
    intro p hp e left st template hst hr
    obtain rfl := passOf?_headedList hp
    obtain ⟨rfl, rfl⟩ := Pass.begin_of_at rfl hst
    obtain rfl : template = 2 := Option.some.inj (hr.located.symm.trans (by decide +kernel))
    exact (Pass.wellSpaced_refilled_iff (by decide +kernel) (Surface.forest_ofMarkup _).toLinked (by decide) hr).1
      (by decide +kernel)
  places := by
    intro c hc r slot n t hm
    obtain rfl := Option.some.inj hc
    exact absurd hm (ExternalChildren.idle_of_pending rfl _ _).not_moves

/-- The items of a list with a heading are spaced. -/
theorem spacing_survives_headedList :
    (headedList.perform (writeX "[\"a\",\"b\"]")).surface.WellSpaced "margin-left" := by
  have hrun : Runs (fun _ _ => True) (mounted headedPage {} (∅ : Handlers Empty) ()) headedList :=
    ⟨[_], fun _ _ _ => trivial, .refl _⟩
  have hstyles : ∀ p ∈ headedList.passOf? (writeX "[\"a\",\"b\"]"), p.Unstyled "margin-left" := fun p hp => by
    rw [passOf?_headedList hp]
    decide
  exact (spacing_survives_iff hrun (by decide) hstyles (by decide +kernel)).2 keepsSpacing_headedList _ .last

/-- A page is well spaced before a write and not after it, and no style parameter has the name of the margin or of the
display. -/
abbrev LosesSpacing (g : Engine Surface Empty Unit) (value : String) : Prop :=
  (∀ p ∈ g.passOf? (writeX value), "margin-left" ∉ p.dependents.parameters ∧ "display" ∉ p.dependents.parameters) ∧
    g.surface.WellSpaced "margin-left" ∧ ¬ (g.perform (writeX value)).surface.WellSpaced "margin-left"

/-- A list without a heading, whose items get no margin. -/
def bareList : Engine Surface Empty Unit :=
  bound (spacedGroup [hiddenTemplate []]) [("list:dummy", [.value])] ∅

/-- The first child is an item. -/
def leadingItem : Engine Surface Empty Unit :=
  bound (spacedGroup [spacedChild "list,0:new" [], spacedChild "tail" [marginLeft], hiddenTemplate [marginLeft]])
    [("list,0:new", []), ("list:dummy", [.value])] ∅

/-- A tip is placed in a group. -/
def placedTip : Engine Surface Empty Unit :=
  bound (spacedGroup [spacedChild "heading" []] ++ [{ spacedChild "tip" [] with externalId := "tip:main" }]) []
    { registrations := [{ object := "tip", slot := "group" }] }

/-- A style shows the first of two children. -/
def clampedFirst : Engine Surface Empty Unit :=
  bound (spacedGroup [spacedChild "first" [("display", "none")], spacedChild "second" []])
    [("first", [styled [("line-clamp", "2")]])] ∅

/-- A style takes the margin from the second of two children. -/
def alignedSecond : Engine Surface Empty Unit :=
  bound (spacedGroup [spacedChild "first" [], spacedChild "second" [marginLeft]])
    [("second", [styled [("align", "top")]])] ∅

/-- **Spacing may be lost by a write**: to new items, with old ones, to a placed node, and to style parameters that
stand for the display or the margin. -/
theorem not_spacing_survives :
    LosesSpacing bareList "[\"a\",\"b\"]" ∧ LosesSpacing leadingItem "[]" ∧ LosesSpacing placedTip "" ∧
      LosesSpacing clampedFirst "1" ∧ LosesSpacing alignedSecond "1" := by
  decide +kernel

end Engine
end BoundPage
