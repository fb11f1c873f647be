import BoundPage.Proofs.Engine.Footprint
import BoundPage.Proofs.Keys
/-!
# Instances on one page

A node belongs to an instance by its data-id, which is an element and the id of the instance with a colon between.  The
text does not say where the colon is: two instances are kept from each other exactly if neither id ends in a colon and
the other (`Engine.isolated_iff_apart`).  Ids without colons always are.
-/
namespace BoundPage
open RenderTarget NodeKey

namespace Surface

/-- A key of the instance is the data-id of the node. -/
def Addressed (s : Surface) (id : String) (n : Slot) : Prop :=
  (s.node n).live ∧ ∃ element, (s.node n).id = some (NodeKey.text ⟨element, id⟩)

variable {s : Surface} {i j : String} {n : Slot}

theorem addressed_of_locate {element : String} (h : locate s ⟨element, i⟩ = some n) : s.Addressed i n :=
  ⟨(ListRegion.locate_live h).1, element, (ListRegion.locate_live h).2⟩

theorem not_addressed (h : Apart i j) {element : String} (hn : (s.node n).id = some (NodeKey.text ⟨element, i⟩)) :
    ¬ s.Addressed j n := fun ⟨_, element', hid⟩ => by
  rw [hn] at hid
  exact text_ne_iff_apart.2 h element element' (Option.some.inj hid)

end Surface

namespace Engine

variable {H W : Type} {i j : String}

/-- **What one instance does is kept from the nodes of another.** -/
structure Isolated (i j : String) : Prop where
  keys : ∀ element element', NodeKey.text ⟨element, i⟩ ≠ NodeKey.text ⟨element', j⟩
  located : ∀ (s : Surface) element element' n, locate s ⟨element, i⟩ = some n → locate s ⟨element', j⟩ ≠ some n
  /-- No dependency of a write is carried out on a node of the other. -/
  writes : ∀ {H W : Type} (g : Engine Surface H W) op p, g.passOf? op = some p → p.instanceId = i →
    ∀ e d left st n, p.At g.surface e (d :: left) st → locate st.surface (p.key e.1) = some n →
      ¬ st.surface.Addressed j n
  /-- No old item of a list is a node of the other. -/
  destroys : ∀ (p : Pass Surface) (k : NodeKey) table, p.instanceId = i → ∀ old ∈ p.staleKeys k table,
    ∀ (s : Surface) n, locate s old = some n → ¬ s.Addressed j n
  /-- Neither is a slot one of the other's nodes, nor is what is placed there one of the other's objects. -/
  places : ∀ {H W : Type} (g : Engine Surface H W) op c, g.placementOf? op = some c → c.instanceId = i →
    ∀ r slot n t, c.children.Moves c.page c.instanceId r slot n t →
      ¬ t.Addressed j slot ∧ ∀ object, (t.node n).externalId ≠ some (NodeKey.text ⟨object, j⟩)

/-- **Two instances are isolated exactly if their ids are apart.** -/
theorem isolated_iff_apart (i j : String) : Isolated i j ↔ Apart i j := by
  constructor
  · exact fun h => text_ne_iff_apart.1 h.keys
  · intro h
    refine ⟨text_ne_iff_apart.2 h, fun s element element' n hi hj => ?_, ?_, ?_, ?_⟩
    · exact Surface.not_addressed h (ListRegion.locate_live hi).2 (Surface.addressed_of_locate hj)
    · intro H W g op p _ hp e d left st n _ hn
      have hid := (ListRegion.locate_live hn).2
      rw [Pass.key, hp] at hid
      exact Surface.not_addressed h hid
    · intro p k table hp old hold s n hn
      obtain ⟨element, -, rfl⟩ := List.mem_map.1 hold
      have hid := (ListRegion.locate_live hn).2
      rw [Pass.key, hp] at hid
      exact Surface.not_addressed h hid
    · intro H W g op c _ hc r slot n t hm
      obtain ⟨-, hslot, hobject⟩ := hm.ids
      rw [hc] at hslot hobject
      refine ⟨Surface.not_addressed h hslot, fun object hother => ?_⟩
      rw [hobject] at hother
      exact text_ne_iff_apart.2 h r.object object (Option.some.inj hother)

/-- A label of the instance `c`, and the variable that is written to it. -/
def crossed : Engine Surface Empty Unit :=
  ((mounted [{ tag := "p", id := "a:b:c", text := "-" }] {} ∅ ()).perform
    (.start "c" { store := .ofList [("x", { dependents := .ofList [("a:b", [.value])] })] })).perform
    (.start "b:c" { store := .ofList [("x", { dependents := .ofList [("a", [.value])] })] })

/-- **The ids of two instances may differ and their data-ids not**: what is written to one is the text of a node that
the other one addresses. -/
theorem not_isolated_crossed :
    "c" ≠ "b:c" ∧ NodeKey.text ⟨"a:b", "c"⟩ = NodeKey.text ⟨"a", "b:c"⟩ ∧
      locate crossed.surface ⟨"a:b", "c"⟩ = some 0 ∧ locate crossed.surface ⟨"a", "b:c"⟩ = some 0 ∧
      (crossed.surface.node 0).text = "-" ∧
      ((crossed.write "c" "x" (.text "7")).state.surface.node 0).text = "7" ∧ ¬ Isolated "c" "b:c" := by
  refine ⟨by decide, by decide, by decide +kernel, by decide +kernel, by decide +kernel, by decide +kernel, fun h => ?_⟩
  exact h.keys "a:b" "a" (by decide)

variable {g : Engine Surface H W} {name : String} {inst : Instance} {v : Variable}

/-- **A write to one instance leaves the nodes of another as they are**, where nothing is left to be placed and no list
depends on the variable: what goes is below a node that takes a text, and styles change by the spacing of a parent. -/
theorem write_spares (h : Apart i j) (heffector : g.effector = inlineStyles) (hpage : g.surface.Linked)
    (hi : g.instance? i = some inst) (hpending : inst.externals.pending = []) (hv : inst.store.get? name = some v)
    (hplain : ∀ element ∈ v.dependents.names, Element.isTemplate element = false) (value : Scalar) {n : Slot}
    (hn : g.surface.Addressed j n) {s : Surface} (hs : (g.write i name value).state.surface = s) :
    ((s.node n).live = false → ∃ top c, g.surface.Names i v.dependents .value top ∧ g.surface.Child top c ∧
      g.surface.Below c n) ∧
    ((s.node n).live → (s.node n).text = (g.surface.node n).text ∧
      (s.node n).children = (g.surface.node n).children ∧
      ∀ property, ¬ g.surface.Spaced i v.dependents n property →
        (s.node n).styles.get? property = (g.surface.node n).styles.get? property) := by
  have hpage' := (write_confined heffector hpage hi hpending hv hplain value).page
  rw [hs] at hpage'
  have hnames : ∀ kind, ¬ g.surface.Names i v.dependents kind n := fun kind ⟨_, e, _, hid, _⟩ =>
    Surface.not_addressed h hid hn
  refine ⟨hpage'.gone n hn.1, fun hlive => ?_⟩
  obtain ⟨htext, hchildren⟩ := hpage'.content n hlive (hnames _)
  refine ⟨htext, hchildren, fun property hspaced => hpage'.style n property hlive ?_⟩
  rintro (hstyle | ⟨hvisible, -⟩ | hspacing)
  · exact hnames _ hstyle
  · exact hnames _ hvisible
  · exact hspaced hspacing

end Engine
end BoundPage
