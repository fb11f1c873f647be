import BoundPage.Proofs.Surface.Regions
import BoundPage.Proofs.Write.Acts
import BoundPage.Proofs.Write.Stages
/-!
# Changes of a surface

What the dependencies of a node change on a surface.  Showing, hiding and styling change styles only; a text replaces
what is below its node; a list is rebuilt.  All of it keeps the links and the levels, and the forest too unless the
template of the list went with its old items.
-/
namespace BoundPage
open RenderTarget
namespace Pass

variable {p : Pass Surface} {k : NodeKey} {ds : List Dependency} {st : State Surface}

/-! ## Styles -/

theorem restyled_parameter (s : Surface) (n : Slot) (parameter : String) (value : Option String) (important : Bool) :
    Surface.Restyled (fun k q => k = n ∧ q ∈ Act.properties parameter) s
      (inlineStyles s n parameter value important) := by
  refine Surface.Restyled.foldl _ s fun t e he => ?_
  refine (Surface.restyled_setStyle t n e.property e.value e.important).mono fun k q h => ⟨h.1, ?_⟩
  rw [← Act.edits_ofParameter] at he
  rw [h.2, Act.properties, ← Act.edited_ofParameter parameter value important]
  exact List.mem_cons_of_mem _ (Act.property_mem_edited he)

theorem restyled_reset (hp : p.effector = inlineStyles) (s : Surface) (n : Slot) (parameter : String)
    (style : StyleParameter) :
    Surface.Restyled (fun k q => k = n ∧ q ∈ Act.properties parameter) s (p.resetParameter s n parameter style) := by
  unfold resetParameter
  rw [hp]
  split
  · exact restyled_parameter s n parameter _ _
  · split
    · exact (Surface.restyled_setStyle s n parameter _ _).mono fun k q (h : k = n ∧ q = parameter) =>
        ⟨h.1, h.2 ▸ List.mem_cons_self⟩
    · exact restyled_parameter s n parameter _ _

/-- Parameters change the properties that they are about, on one node. -/
theorem restyled_parameters (hp : p.effector = inlineStyles) (element : String) (n : Slot) (matched : Bool)
    (changed : String → Prop) : ∀ (entries : List (String × StyleParameter)) (st : State Surface),
      (∀ x ∈ entries, ∀ q ∈ Act.properties x.1, changed q) →
      Surface.Restyled (fun k q => k = n ∧ changed q) st.surface
        (entries.foldl (p.styleParameter element n matched) st).surface
  | [], _, _ => .refl _ _
  | x :: entries, st, h => by
    refine Surface.Restyled.trans ?_
      (restyled_parameters hp element n matched changed entries _ fun y hy => h y (List.mem_cons_of_mem x hy))
    have hx : ∀ k q, k = n ∧ q ∈ Act.properties x.1 → k = n ∧ changed q := fun k q hq =>
      ⟨hq.1, h x List.mem_cons_self q hq.2⟩
    unfold styleParameter
    split
    · show Surface.Restyled _ st.surface (p.effector st.surface n x.1 x.2.value.text x.2.value.important)
      rw [hp]
      exact (restyled_parameter _ n x.1 _ _).mono hx
    · split
      · exact .refl _ _
      · exact (restyled_reset hp _ n x.1 x.2).mono hx

theorem restyled_styleParameters (hp : p.effector = inlineStyles) (element : String) (n : Slot) (matched : Bool)
    (entries : List (String × StyleParameter)) (st : State Surface) :
    Surface.Restyled (fun k _ => k = n) st.surface (entries.foldl (p.styleParameter element n matched) st).surface :=
  (restyled_parameters hp element n matched (fun _ => True) entries st fun _ _ _ _ => trivial).mono fun _ _ h => h.1

/-- Showing or hiding a node changes its `display`, and beside that only the property its parent spaces its children
by, on these children. -/
theorem restyled_visible (s : Surface) (n : Slot) (display : String) :
    Surface.Restyled (fun k q => k = n ∧ q = "display" ∨
        ∃ parent, (s.node n).parent = some parent ∧ s.Child parent k ∧ s.spacingProperty? parent = some q) s
      (Layout.refreshSpacing (setStyle s n "display" (some display) false) n) := by
  have h1 : Surface.Restyled (fun k q => k = n ∧ q = "display") s (setStyle s n "display" (some display) false) :=
    Surface.restyled_setStyle s n "display" (some display) false
  generalize (setStyle s n "display" (some display) false : Surface) = u at h1 ⊢
  refine (h1.mono fun _ _ h => .inl h).trans ((Surface.restyled_refreshSpacing u n).mono fun k q h => ?_)
  obtain ⟨parent, hpar, hchild, hrule⟩ := h
  refine .inr ⟨parent, by rw [← hpar, h1.node], h1.sameTree.child_iff.1 hchild, ?_⟩
  unfold Surface.spacingProperty? Layout.spacingRule? at hrule ⊢
  rw [← hrule]
  show Option.map _ (Option.bind ((s.node parent).attributes.get? _) _) =
    Option.map _ (Option.bind ((u.node parent).attributes.get? _) _)
  rw [h1.node parent]

/-! ## Trees -/

variable {d : Dependency} {s : Surface} {table : DependencyTable} {destroyed : List String}

/-- **A dependency keeps the links**, and anything that follows from the links and is kept by removing, replacing and
restyling. -/
theorem Change.keeps {I : Surface → Prop} (hp : p.effector = inlineStyles) (hs : I st.surface)
    (hstyle : ∀ {t u}, Surface.SameTree t u → I t → I u) (htext : ∀ {t} n text, I t → I (setText t n text))
    (hlist : ∀ template, d = .value → p.Rebuilds k st.surface template →
      I (p.refilled k st.table st.surface template (ListRegion.items p.value)).1)
    (h : p.Change k ds st d s table destroyed) : I s := by
  cases h with
  | owned _ => exact hs
  | text _ _ _ => exact htext _ _ hs
  | list hr => exact hlist _ rfl hr
  | visible _ => exact hstyle (restyled_visible _ _ _).sameTree hs
  | style _ => exact hstyle (restyled_styleParameters hp _ _ _ _ _).sameTree hs

theorem Change.linked (hp : p.effector = inlineStyles) (hs : st.surface.Linked)
    (h : p.Change k ds st d s table destroyed) : s.Linked :=
  h.keeps hp hs (fun ht => ht.linked) (fun n text ht => ht.setText n text) fun _ _ hr =>
    ListRegion.linked_makeItems hr.isTemplate (ListRegion.linked_destroyAll hs _) _ _

/-- **The template of a list is still there when its old items are gone**, or there is nothing to make. -/
def KeepsTemplate (p : Pass Surface) (k : NodeKey) (table : DependencyTable) (s : Surface) (template : Slot) : Prop :=
  ListRegion.items p.value = [] ∨ ((p.cleared k table s).node template).live

theorem forest_refilled_iff (hs : st.surface.Forest) {template : Slot} (hr : p.Rebuilds k st.surface template) :
    (p.refilled k st.table st.surface template (ListRegion.items p.value)).1.Forest ↔
      p.KeepsTemplate k st.table st.surface template :=
  ListRegion.forest_makeItems_iff hr.isTemplate (ListRegion.forest_destroyAll hs _) _ _

theorem Change.forest (hp : p.effector = inlineStyles) (hs : st.surface.Forest)
    (hkeep : ∀ template, d = .value → p.Rebuilds k st.surface template →
      p.KeepsTemplate k st.table st.surface template)
    (h : p.Change k ds st d s table destroyed) : s.Forest :=
  h.keeps hp hs (fun ht => ht.forest) (fun n text ht => ht.setText n text) fun template hd hr =>
    (forest_refilled_iff hs hr).2 (hkeep template hd hr)

end Pass
end BoundPage
