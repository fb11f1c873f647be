import BoundPage.Proofs.Surface.RowItems
import BoundPage.Proofs.Write.Changes
/-!
# Spacing in a pass

Texts keep the rows of a page spaced, and so does showing or hiding a node.  Styles do if no parameter is about the
spacing or the visibility of a node (`Unstyled`).  A list does exactly if its old items do not take the first visible
child of a row away from others, and there is room for the new ones (`wellSpaced_refilled_iff`).
-/
namespace BoundPage
open RenderTarget

/-- The style parameters that a dependency names. -/
def Dependency.parameters : Dependency → List String
  | .style _ parameters => parameters.names
  | .value | .visible _ => []

def DependencyTable.parameters (t : DependencyTable) : List String :=
  t.entries.flatMap fun e => e.2.flatMap Dependency.parameters

theorem DependencyTable.mem_parameters {t : DependencyTable} {e : String × List Dependency} {d : Dependency}
    {parameter : String} (he : e ∈ t.entries) (hd : d ∈ e.2) (h : parameter ∈ d.parameters) :
    parameter ∈ t.parameters := List.mem_flatMap.2 ⟨e, he, List.mem_flatMap.2 ⟨d, hd, h⟩⟩

namespace Pass

variable {p : Pass Surface} {k : NodeKey} {ds : List Dependency} {st : State Surface} {d : Dependency} {s : Surface}
  {table : DependencyTable} {destroyed : List String} {property : String} {template : Slot}

/-! ## Styles -/

/-- No style parameter is about the property or about what hides a node. -/
def Unstyled (p : Pass Surface) (property : String) : Prop :=
  ∀ parameter ∈ p.dependents.parameters,
    property ∉ Act.properties parameter ∧ "display" ∉ Act.properties parameter

instance (p : Pass Surface) (property : String) : Decidable (p.Unstyled property) :=
  inferInstanceAs (Decidable (∀ parameter ∈ p.dependents.parameters,
    property ∉ Act.properties parameter ∧ "display" ∉ Act.properties parameter))

theorem wellSpaced_parameters (hp : p.effector = inlineStyles) (hs : st.surface.WellSpaced property) (element : String)
    (n : Slot) (matched : Bool) {parameters : Table StyleParameter}
    (h : ∀ parameter ∈ parameters.names,
      property ∉ Act.properties parameter ∧ "display" ∉ Act.properties parameter) :
    (parameters.entries.foldl (p.styleParameter element n matched) st).surface.WellSpaced property := by
  have hchanged : ∀ x ∈ parameters.entries, ∀ q ∈ Act.properties x.1, q ≠ property ∧ q ≠ "display" := fun x hx q hq =>
    have hname := h x.1 (List.mem_map_of_mem hx)
    ⟨fun he => hname.1 (he ▸ hq), fun he => hname.2 (he ▸ hq)⟩
  have hr := restyled_parameters hp element n matched (fun q => q ≠ property ∧ q ≠ "display") parameters.entries st hchanged
  exact hs.restyled hr.toAlikeBut fun _ _ c _ _ => hr.look (fun hc => hc.2.2 rfl) fun hc => hc.2.1 rfl

/-! ## Lists -/

/-- **A list may be rebuilt without breaking a row**: of what goes with the old items nothing is the first of several
visible children, and there is room for the new items. -/
structure ListFits (p : Pass Surface) (k : NodeKey) (table : DependencyTable) (s : Surface) (template : Slot)
    (property : String) : Prop where
  keepsFirst : s.KeepsFirst (p.cleared k table s) property
  itemsFit : (p.cleared k table s).ItemsFit property template (ListRegion.items p.value).length

theorem wellSpaced_refilled_iff (hw : st.surface.WellSpaced property) (hs : st.surface.Linked)
    (hproperty : property ≠ "display") (hr : p.Rebuilds k st.surface template) :
    (p.refilled k st.table st.surface template (ListRegion.items p.value)).1.WellSpaced property ↔
      p.ListFits k st.table st.surface template property := by
  have hcleared : (p.cleared k st.table st.surface).WellSpaced property ↔
      st.surface.KeepsFirst (p.cleared k st.table st.surface) property :=
    Surface.wellSpaced_destroyAll_iff hw hs _
  have hmade : (p.refilled k st.table st.surface template (ListRegion.items p.value)).1.WellSpaced property ↔
      (p.cleared k st.table st.surface).WellSpaced property ∧
        (p.cleared k st.table st.surface).ItemsFit property template (ListRegion.items p.value).length :=
    Surface.wellSpaced_makeItems_iff hr.isTemplate (ListRegion.linked_destroyAll hs _) hproperty _ _
  refine hmade.trans ((and_congr_left' hcleared).trans ?_)
  exact ⟨fun h => ⟨h.1, h.2⟩, fun h => ⟨h.keepsFirst, h.itemsFit⟩⟩

/-! ## Any dependency -/

theorem Change.wellSpaced (hp : p.effector = inlineStyles) (hw : st.surface.WellSpaced property)
    (hs : st.surface.Linked) (hproperty : property ≠ "display")
    (hstyles : ∀ parameter ∈ d.parameters,
      property ∉ Act.properties parameter ∧ "display" ∉ Act.properties parameter)
    (hlist : ∀ template, d = .value → p.Rebuilds k st.surface template →
      p.ListFits k st.table st.surface template property)
    (h : p.Change k ds st d s table destroyed) : s.WellSpaced property := by
  cases h with
  | owned _ => exact hw
  | text _ _ _ => exact hw.setText hs _ _
  | list hr => exact (wellSpaced_refilled_iff hw hs hproperty hr).2 (hlist _ rfl hr)
  | visible _ => exact hw.refreshSpacing hs hproperty _ _
  | style _ => exact wellSpaced_parameters hp hw _ _ _ hstyles

end Pass
end BoundPage
