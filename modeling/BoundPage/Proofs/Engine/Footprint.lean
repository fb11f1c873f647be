import BoundPage.Proofs.Engine.Idle
import BoundPage.Proofs.Write.Footprint
/-!
# The footprint of a write

A write changes the page and the instance that it is made to.  Where nothing is left to be placed and no list depends on
the variable, it touches what the variable's table declares (`write_confined`): the page stays within the footprint of
the table, the table itself stays, and so do all other variables and instances.
-/
namespace BoundPage
open RenderTarget

namespace Engine

variable {S H W : Type}

/-- The pass of a write to a variable. -/
def passFor (g : Engine S H W) (id : String) (v : Variable) (value : Scalar) : Pass S where
  effector := g.effector
  options := g.options
  instanceId := id
  value := value.render
  dependents := v.dependents

variable [RenderTarget S] {g : Engine S H W} {id name : String} {i : Instance} {v : Variable}

/-- The placement that follows the pass of a write. -/
def placingFor (g : Engine S H W) (id : String) (i : Instance) (v : Variable) (value : Scalar) :
    ExternalChildren.Progress S :=
  i.externals.placePending ((g.passFor id v value).run g.surface).surface id

/-- **What a write changes.** -/
theorem state_write (hi : g.instance? id = some i) (hv : i.store.get? name = some v) (value : Scalar) :
    (g.write id name value).state =
      { g with
        surface := (g.placingFor id i v value).surface
        instances := g.instances.insert id
          { store := i.store.insert name
              { value := value.render, dependents := ((g.passFor id v value).run g.surface).table }
            externals := (g.placingFor id i v value).children } } := by
  unfold write Instance.write
  simp only [hi, hv]
  rfl

end Engine

namespace Engine

variable {H W : Type} {g g' : Engine Surface H W} {id name : String} {i : Instance} {v : Variable}

/-- **A write touches what the variable declares**, and nothing else. -/
structure Confined (g : Engine Surface H W) (id name : String) (i : Instance) (v : Variable)
    (g' : Engine Surface H W) : Prop where
  page : Surface.Confined id v.dependents g.surface g'.surface
  /-- The variable keeps its table, the instance its other variables and its external children. -/
  store : ∃ i', g'.instance? id = some i' ∧ i'.externals = i.externals ∧
    (i'.store.get? name).map (·.dependents) = some v.dependents ∧
    ∀ other, other ≠ name → i'.store.get? other = i.store.get? other
  instances : ∀ other, other ≠ id → g'.instance? other = g.instance? other

/-- **A write changes what the table of its variable declares, and nothing else**, where nothing is left to be placed
and no list depends on the variable: the page within the footprint of the table, the variable's own text, and neither
another variable nor another instance. -/
theorem write_confined (heffector : g.effector = inlineStyles) (hpage : g.surface.Linked)
    (hi : g.instance? id = some i) (hpending : i.externals.pending = []) (hv : i.store.get? name = some v)
    (hplain : ∀ element ∈ v.dependents.names, Element.isTemplate element = false) (value : Scalar) :
    g.Confined id name i v (g.write id name value).state := by
  obtain ⟨-, hrun, htable⟩ := (Pass.stage_confined (p := g.passFor id v value) heffector hpage hplain).2
  obtain ⟨hsurface, hchildren⟩ : (g.placingFor id i v value).surface = _ ∧ (g.placingFor id i v value).children = _ :=
    (ExternalChildren.idle_of_pending hpending _ id).placePending
  rw [state_write hi hv, hsurface, hchildren]
  refine ⟨hrun, ⟨_, Table.get?_insert_self _ _ _, rfl, ?_, fun other hne => ?_⟩, fun other hne => ?_⟩
  · rw [Table.get?_insert_self]
    exact congrArg some htable
  · exact Table.get?_insert_of_ne _ _ hne
  · exact Table.get?_insert_of_ne _ _ hne

/-- Three rows of a spaced column; the first has a mark in it. -/
def columnPage : List Markup :=
  [{ tag := "div", id := "root:main", attributes := .ofList [("spacing", "margin-top: 4px")]
     children :=
      [{ tag := "p", id := "label:main", children := [{ tag := "i", id := "mark:main" }] },
       { tag := "p", id := "note:main" },
       { tag := "p", id := "rest:main", text := "rest" }] }]

/-- The variable writes the label over the mark, hides the note and colours it. -/
def columnVariable : Variable where
  dependents := .ofList [("label", [.value]), ("mark", [.visible .isNull]),
    ("note", [.visible .isNull, .style (some "1") (.ofList [("color", { value := { text := some "red" } })])])]

def columnInstance : Instance := { store := .ofList [("x", columnVariable), ("y", {})] }

def column : Engine Surface Empty Unit := (mounted columnPage {} ∅ ()).perform (.start "main" columnInstance)

/-- The mark goes, the note is hidden, and the row after it is spaced. -/
theorem confined_column :
    column.Confined "main" "x" columnInstance columnVariable (column.write "main" "x" (.text "1")).state ∧
      ((column.write "main" "x" (.text "1")).state.surface.node 2).live = false ∧
      RenderTarget.style (column.write "main" "x" (.text "1")).state.surface 3 "display" = some "none" ∧
      RenderTarget.style (column.write "main" "x" (.text "1")).state.surface 4 "margin-top" = some "4px" :=
  ⟨write_confined rfl (Surface.forest_ofMarkup columnPage).toLinked rfl rfl rfl (by decide)
    (.text "1"), by decide +kernel, by decide +kernel, by decide +kernel⟩

end Engine
end BoundPage
