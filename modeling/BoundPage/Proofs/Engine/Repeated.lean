import BoundPage.Proofs.Engine.Footprint
import BoundPage.Proofs.Write.Repeated
/-!
# A write that is repeated

A placement leaves nothing to be placed (`ExternalChildren.idle_placePending`), so writing a value again leaves the
instances as they are, and all that it does to the page is a pass over what an equal pass has left
(`Engine.write_again`).  What that may still change is said by `Pass.MayChange`, and some of it does change
(`Engine.write_not_idempotent`).
-/
namespace BoundPage
open RenderTarget

namespace Engine

variable {H W : Type} {g : Engine Surface H W} {id name : String} {i : Instance} {v : Variable}

theorem instance_write (hi : g.instance? id = some i) (hv : i.store.get? name = some v) (value : Scalar) :
    (g.write id name value).state.instance? id = some
      { store := i.store.insert name
          { value := value.render, dependents := ((g.passFor id v value).run g.surface).table }
        externals := (g.placingFor id i v value).children } := by
  rw [state_write hi hv]
  exact Table.get?_insert_self _ _ _

/-- **Writing the text that a variable has is a pass**, if no registration has its turn after it. -/
theorem state_write_same (value : Scalar) (heffector : g.effector = inlineStyles) (hpage : g.surface.Linked)
    (hi : g.instance? id = some i) (hv : i.store.get? name = some v) (hlistless : (g.passFor id v value).Listless)
    (hvalue : v.value = value.render)
    (hidle : i.externals.Idle ((g.passFor id v value).run g.surface).surface id) :
    (g.write id name value).state = { g with surface := ((g.passFor id v value).run g.surface).surface } := by
  obtain ⟨-, -, htable⟩ := (Pass.stage_confined (p := g.passFor id v value) heffector hpage hlistless).2
  obtain ⟨hsurface, hchildren⟩ : (g.placingFor id i v value).surface = _ ∧ (g.placingFor id i v value).children = _ :=
    hidle.placePending
  have hsame : { value := value.render, dependents := ((g.passFor id v value).run g.surface).table } = v := by
    rw [htable, ← hvalue]
    rfl
  rw [state_write hi hv, hsurface, hchildren, hsame, Table.insert_of_get? hv, Table.insert_of_get? hi]

/-- **A write that is repeated leaves the instances as they are**, and the page but for the styles that a pass over it
may change. -/
structure RepeatsTo (g : Engine Surface H W) (id : String) (v : Variable) (value : Scalar)
    (once twice : Engine Surface H W) : Prop where
  instances : twice.instances = once.instances
  page : Surface.AlikeBut ((g.passFor id v value).MayChange g.surface once.surface) once.surface twice.surface
  visible : ∀ k, isVisible twice.surface k = isVisible once.surface k

/-- **A write is repeated** on a page whose links agree, as those of all runs do, where no two nodes have a data-id of
the table, and before and after the first write nodes are not spaced by what acts read, and after it those that show the
value have nothing in them. -/
theorem write_again (heffector : g.effector = inlineStyles) (hi : g.instance? id = some i)
    (hv : i.store.get? name = some v) (hlistless : ∀ element ∈ v.dependents.names, Element.isTemplate element = false)
    (value : Scalar) (hpage : (g.passFor id v value).Fits g.surface)
    (hunread : ∀ r ∈ Act.read, ∀ k, ¬ (g.write id name value).state.surface.Spaced id v.dependents k r)
    (hchildren : ∀ n, (g.write id name value).state.surface.Names id v.dependents .value n →
      ((g.write id name value).state.surface.node n).children = []) :
    g.RepeatsTo id v value (g.write id name value).state ((g.write id name value).state.write id name value).state := by
  obtain ⟨hrun, hconf, htable⟩ := (Pass.stage_confined (p := g.passFor id v value) heffector hpage.linked hlistless).2
  have honce := state_write hi hv value
  have hfound := instance_write hi hv value
  rw [htable] at honce hfound
  generalize (g.write id name value).state = once at *
  have hsurface : once.surface = (g.placingFor id i v value).surface := congrArg Engine.surface honce
  have hlinked : once.surface.Linked := hsurface ▸ ExternalChildren.linked_placePending hrun i.externals id
  have hown : ∀ k, (once.surface.node k).own = (((g.passFor id v value).run g.surface).surface.node k).own :=
    hsurface ▸ (i.externals.own_placePending _ id).2
  have hfits : (g.passFor id v value).Fits once.surface :=
    { linked := hlinked
      distinct := fun e he n m hn hm =>
        hpage.distinct e he n m ((hn.of_own hown).of_kept hconf.toKept) ((hm.of_own hown).of_kept hconf.toKept)
      unread := hunread }
  obtain ⟨hagain, hvisible⟩ :=
    Pass.again (p := g.passFor id v value) heffector hlistless hpage hfits hown hchildren
  -- The second write makes the same pass, and finds nothing to place.
  have hpass : once.passFor id { value := value.render, dependents := (g.passFor id v value).dependents } value =
      g.passFor id v value := by
    rw [honce]
    rfl
  have hidle : (g.placingFor id i v value).children.Idle once.surface id :=
    hsurface ▸ i.externals.idle_placePending _ id
  have htwice := state_write_same value ((congrArg Engine.effector honce).trans heffector) hlinked hfound
    (Table.get?_insert_self _ _ _) hlistless rfl (by rw [hpass]; exact hidle.sameSight (hagain.sameSight hvisible))
  rw [htwice, hpass]
  exact ⟨rfl, hagain, hvisible⟩

def columnOnce : Engine Surface Empty Unit := (column.write "main" "x" (.text "1")).state

/-- What is written over the mark stays, and the row is spaced as it was. -/
theorem repeats_column :
    column.RepeatsTo "main" columnVariable (.text "1") columnOnce (columnOnce.write "main" "x" (.text "1")).state ∧
      ((columnOnce.write "main" "x" (.text "1")).state.surface.node 1).text = "1" ∧
      RenderTarget.style (columnOnce.write "main" "x" (.text "1")).state.surface 4 "margin-top" = some "4px" := by
  have hlinked : column.surface.Linked := (Surface.forest_ofMarkup columnPage).toLinked
  have hlinked' : (column.perform (.write "main" "x" (.text "1"))).surface.Linked :=
    linked_goesThrough rfl hlinked .last
  have hids : ∀ n ∈ column.surface.liveSlots, ∀ m ∈ column.surface.liveSlots,
      (column.surface.node n).id = (column.surface.node m).id → n = m := by decide +kernel
  have hrules : ∀ r ∈ Act.read, ∀ k ∈ column.surface.liveSlots, column.surface.spacingProperty? k ≠ some r := by
    decide +kernel
  have hrules' : ∀ r ∈ Act.read, ∀ k ∈ columnOnce.surface.liveSlots,
      columnOnce.surface.spacingProperty? k ≠ some r := by decide +kernel
  -- After the write only the column itself has children, and no entry is about it.
  have hempty : ∀ k ∈ columnOnce.surface.liveSlots, k ≠ 0 → (columnOnce.surface.node k).children = [] := by
    decide +kernel
  have hroot : ∀ e ∈ columnVariable.dependents.entries,
      (columnOnce.surface.node 0).id ≠ some (NodeKey.mk e.1 "main").text := by decide +kernel
  refine ⟨write_again rfl rfl rfl (by decide) (.text "1")
    { linked := hlinked
      distinct := fun e _ n m hn hm => hids n ((Surface.mem_liveSlots _).2 hn.1) m ((Surface.mem_liveSlots _).2 hm.1)
        (hn.2.trans hm.2.symm)
      unread := fun r hr => hlinked.not_spaced (hrules r hr) }
    (fun r hr => hlinked'.not_spaced (hrules' r hr)) fun n ⟨hl, e, he, hid, _⟩ => ?_, by decide +kernel,
    by decide +kernel⟩
  refine hempty n ((Surface.mem_liveSlots _).2 hl) fun hn => ?_
  rw [hn] at hid
  exact hroot e he hid

/-! ### What a write changes again -/

/-- A page with one variable. -/
def bound (page : List Markup) (entries : List (String × List Dependency)) (externals : ExternalChildren) :
    Engine Surface Empty Unit :=
  (mounted page {} ∅ ()).perform
    (.start "main" { store := .ofList [("x", { dependents := .ofList entries })], externals })

/-- Something of the page after a write, and after the same write again. -/
def onceAndTwice {α : Type} (g : Engine Surface Empty Unit) (look : Surface → α) : α × α :=
  let once := (g.write "main" "x" (.text "1")).state
  (look once.surface, look (once.write "main" "x" (.text "1")).state.surface)

def paragraph (element : String) : Markup := { tag := "p", id := (NodeKey.mk element "main").text }

def spacedRow (rule : String) (elements : List String) : List Markup :=
  [{ tag := "div", attributes := .ofList [("spacing", rule)], children := elements.map paragraph }]

def styled (parameters : List (String × String)) : Dependency :=
  .style (some "1") (.ofList (parameters.map fun p => (p.1, { value := { text := some p.2 } })))

/-- A paragraph is shown before it gets the style that its layout follows from. -/
def shownEarly : Engine Surface Empty Unit :=
  bound [paragraph "label"] [("label", [.visible .isNotNull, styled [("flex-direction", "row")]])] ∅

/-- The colour of a shadow is a length. -/
def lengthColoured : Engine Surface Empty Unit :=
  bound [paragraph "label"] [("label", [styled [("shadow-color", "1px"), ("shadow-blur", "2px")]])] ∅

/-- Two nodes with one data-id, of which the first goes. -/
def twoLabels : Engine Surface Empty Unit :=
  bound [{ paragraph "box" with children := [paragraph "label"] }, paragraph "label"]
    [("label", [styled [("color", "red")]]), ("box", [.value])] ∅

/-- A tip is placed where the value is shown. -/
def overwrittenTip : Engine Surface Empty Unit :=
  bound [paragraph "slot", { tag := "p", externalId := "tip:main" }] [("slot", [.value])]
    { registrations := [{ object := "tip", slot := "slot" }] }

/-- The first of two paragraphs is shown and hidden again, and then the second one is hidden. -/
def lastHidden : Engine Surface Empty Unit :=
  bound (spacedRow "margin-top: 4px" ["first", "second"])
    [("first", [.visible .isNotNull, .visible .isNull]), ("second", [.visible .isNull])] ∅

/-- The second paragraph is shown, and then a style hides the first. -/
def hiddenByStyle : Engine Surface Empty Unit :=
  bound (spacedRow "margin-top: 4px" ["first", "second"])
    [("second", [.visible .isNotNull]), ("first", [styled [("display", "none")]])] ∅

/-- The second paragraph gets a margin of its own, and is hidden like the first. -/
def ownMargin : Engine Surface Empty Unit :=
  bound (spacedRow "margin-top: 4px" ["first", "second"])
    [("second", [styled [("margin-top", "9px")], .visible .isNull]), ("first", [.visible .isNull])] ∅

/-- The space between paragraphs is a style that their layout follows from. -/
def spacedByLayout : Engine Surface Empty Unit :=
  bound (spacedRow "flex-direction: row" ["first", "second"]) [("second", [.visible .isNotNull])] ∅

/-- **A write that is repeated may change the page**, for each of the reasons. -/
theorem write_not_idempotent :
    onceAndTwice shownEarly (style · 0 "display") = (some "block", some "flex") ∧
    onceAndTwice lengthColoured (style · 0 "box-shadow") = (some "1px 0px 2px 0px", some "1px 1px 2px 2px") ∧
    onceAndTwice twoLabels (style · 2 "color") = (none, some "red") ∧
    onceAndTwice overwrittenTip Surface.liveCount = (2, 1) ∧
    onceAndTwice lastHidden (style · 2 "margin-top") = (none, some "4px") ∧
    onceAndTwice hiddenByStyle (style · 2 "margin-top") = (some "4px", none) ∧
    onceAndTwice ownMargin (style · 2 "margin-top") = (some "4px", some "9px") ∧
    onceAndTwice spacedByLayout (style · 2 "display") = (some "block", some "flex") := by
  decide +kernel

end Engine
end BoundPage
