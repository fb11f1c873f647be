import BoundPage.Proofs.Engine.Idle
import BoundPage.Proofs.Write.Styling
/-!
# What styling shows

A write to a variable with style dependencies only hides no node, if none of them is about `display`.  It shows a hidden
one exactly if it limits the lines of the node, or takes such a limit back (`visible_after_styling`): that is done with
the display of the node.
-/
namespace BoundPage
open RenderTarget

namespace Pass

variable {p : Pass Surface} {s : Surface} {m : Slot}

theorem StylesOnly.parameter_mem (h : p.StylesOnly) {c : Call} (hc : c ∈ p.calls s) :
    c.parameter ∈ p.dependents.parameters := by
  obtain ⟨e, d, left, st, hat, hc⟩ := mem_calls.1 hc
  obtain ⟨condition, parameters, rfl⟩ := h e hat.mem d hat.mem_left
  rw [callsOf_style (node_of_mem_callsOf hc)] at hc
  obtain ⟨-, style, hget, -⟩ := mem_styleCalls.1 hc
  exact DependencyTable.mem_parameters hat.mem hat.mem_left (Table.mem_names_iff_isSome.2 (by rw [hget]; rfl))

/-- **After a pass that only styles, the nodes that were visible and those it clamps are.** -/
theorem StylesOnly.visible_run (h : p.StylesOnly) (hp : p.effector = inlineStyles)
    (hdisplay : "display" ∉ p.dependents.parameters) (m : Slot) :
    isVisible (p.run s).surface m ↔ isVisible s m ∨ p.Clamped s m := by
  rw [h.surface_run, visible_foldl_run hp (p.calls s) s fun c hc => ⟨fun hd => ?_, ?_⟩, h.clamped_iff hp]
  · exact hdisplay (hd ▸ h.parameter_mem hc)
  · obtain ⟨e, d, left, st, hat, hc⟩ := mem_calls.1 hc
    have hpage := ((h.entries hp fun _ he => he).1 e _ st hat).1
    rw [← hpage.size]
    exact Surface.lt_size_of_live _ (ListRegion.locate_live (node_of_mem_callsOf hc)).1

end Pass

namespace Engine
open Pass

variable {H W : Type} {g : Engine Surface H W} {op : Operation} {p : Pass Surface}

/-- **Styling hides no node, and shows the ones that it clamps**, and no others. -/
theorem visible_after_styling (hg : g.effector = inlineStyles) (hop : g.passOf? op = some p) (hstyles : p.StylesOnly)
    (hdisplay : "display" ∉ p.dependents.parameters) (m : Slot) :
    isVisible (g.perform op).surface m ↔ isVisible g.surface m ∨ p.Clamped g.surface m := by
  obtain ⟨hsize, hown⟩ := own_perform hop
  rw [(Surface.SameSight.of_own hsize hown).visible m]
  exact hstyles.visible_run ((effector_passOf? hop).trans hg) hdisplay m

/-- Writes that only style, and not the display, hide no node and show none. -/
def StylingKeepsSight (g : Engine Surface H W) : Prop :=
  ∀ {op p}, g.passOf? op = some p → p.StylesOnly → "display" ∉ p.dependents.parameters →
    ∀ m, isVisible (g.perform op).surface m = isVisible g.surface m

/-! ## A summary that is hidden -/

def linesEntry : String × List Dependency :=
  ("summary", [.style (some "1") (.ofList [("line-clamp", { value := { text := "2" } })])])

/-- A summary that another variable has hidden. -/
def concealed : Engine Surface Empty Unit :=
  ((mounted [{ tag := "p", id := "summary:main" }] {} ∅ ()).perform
    (.start "main" { store := .ofList [
      ("open", { dependents := .ofList [("summary", [.visible .isNotNull])] }),
      ("short", { dependents := .ofList [linesEntry] })] })).perform (.write "main" "open" (.text ""))

def shortening : Pass Surface where
  effector := inlineStyles
  options := {}
  instanceId := "main"
  value := "1"
  dependents := .ofList [linesEntry]

theorem passOf?_concealed : concealed.passOf? (.write "main" "short" (.text "1")) = some shortening := rfl

theorem stylesOnly_shortening : shortening.StylesOnly := by
  rintro e he d hd
  obtain rfl := List.mem_singleton.1 he
  obtain rfl := List.mem_singleton.1 hd
  exact ⟨_, _, rfl⟩

theorem visible_after_styling_summary :
    isVisible concealed.surface 0 = false ∧
      isVisible (concealed.perform (.write "main" "short" (.text "1"))).surface 0 := by
  refine ⟨by decide +kernel, ?_⟩
  refine (visible_after_styling (by rfl) passOf?_concealed stylesOnly_shortening (by decide +kernel) 0).2 (.inr ?_)
  exact ⟨linesEntry, List.mem_cons_self, by decide +kernel, _, _, _, List.mem_cons_self, rfl, .inl rfl⟩

/-- **Limiting the lines of a hidden node shows it.** -/
theorem not_stylingKeepsSight_concealed : ¬ concealed.StylingKeepsSight := fun h => by
  have hkept := h passOf?_concealed stylesOnly_shortening (by decide +kernel) 0
  exact absurd hkept (by decide +kernel)

end Engine
end BoundPage
