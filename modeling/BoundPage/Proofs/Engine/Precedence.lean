import BoundPage.Proofs.Engine.Forests
import BoundPage.Proofs.Engine.Stages
import BoundPage.Proofs.Write.Nodewise
/-!
# Which style prevails

A style dependency that does not match spares the parameters that a matching one of the same node has applied before it
in the same write; it resets the others, and that is all it does to the page (`reset_spares_applied`).

What is spared are parameters, not properties.  Parameters that stand for several properties overlap, and so a parameter
that nobody has applied may take back a property that another one has set (`not_sparesSet_overlapping`).
-/
namespace BoundPage
open RenderTarget

namespace Pass

/-- The resets of the parameters of a style dependency, without those that have been applied. -/
def resets {S : Type} (p : Pass S) (applied : List String) (parameters : Table StyleParameter) : List Act :=
  (parameters.entries.filter fun e => !applied.contains e.1).map fun e => p.resetAct e.1 e.2

variable {p : Pass Surface} {s : Surface} {e : String × List Dependency} {before : List Dependency}
  {condition : Option String} {parameters : Table StyleParameter} {n : Slot} {st st' : State Surface}

/-- A parameter is reset by way of the properties that it is about. -/
theorem edited_resetAct {parameter property : String} {style : StyleParameter}
    (h : property ∈ (p.resetAct parameter style).edited) : property ∈ Act.properties parameter := by
  unfold resetAct at h
  split at h
  · rw [Act.edited_ofParameter] at h
    exact List.mem_cons_of_mem parameter h
  · split at h
    · exact List.mem_singleton.1 h ▸ List.mem_cons_self
    · exact List.mem_cons_of_mem parameter h

/-- **The pass carries out a style dependency of a node**, after some other dependencies of its entry. -/
structure Styles (p : Pass Surface) (s : Surface) (e : String × List Dependency) (before : List Dependency)
    (condition : Option String) (parameters : Table StyleParameter) (n : Slot) (st st' : State Surface) : Prop where
  reached : ∃ left, e.2 = before ++ .style condition parameters :: left ∧
    p.At s e (.style condition parameters :: left) st
  located : locate st.surface (p.key e.1) = some n
  done : p.applyOne (p.key e.1) e.2 (.style condition parameters) st = .ok st'

/-- The state after a style dependency of a node. -/
def restyle {S : Type} [RenderTarget S] (p : Pass S) (element : String) (condition : Option String)
    (parameters : Table StyleParameter) (n : Nat) (st : State S) : State S :=
  (parameters.entries.foldl (p.styleParameter element n (condition == some p.value)) st).say
    (.appliedStyle (p.key element) (condition == some p.value) parameters.size)

namespace Styles

theorem of_located {left : List Dependency} (hat : p.At s e (.style condition parameters :: left) st)
    (hds : e.2 = before ++ .style condition parameters :: left) (hl : locate st.surface (p.key e.1) = some n) :
    p.Styles s e before condition parameters n st (p.restyle e.1 condition parameters n st) :=
  ⟨⟨left, hds, hat⟩, hl, applyOne_style hl⟩

variable (h : p.Styles s e before condition parameters n st st')
include h

theorem lt_size : n < st.surface.size := Surface.lt_size_of_live _ (ListRegion.locate_live h.located).1

/-- **A dependency that does not match carries out its resets on its node.** -/
theorem surface_of_unmatched (hp : p.effector = inlineStyles) (hc : condition ≠ some p.value) :
    st'.surface = (p.resets (p.applied before) parameters).foldl (Act.run p.value n) st.surface := by
  obtain ⟨left, hds, hat⟩ := h.reached
  have hdone := h.done
  rw [applyOne_style h.located, beq_eq_false_iff_ne.2 hc] at hdone
  obtain rfl := Except.ok.inj hdone
  have happlied := edited_at hat hds (by rw [h.located]; rfl)
  have hfilter : parameters.entries.filter (fun e' => !(p.applied before).contains e'.1) =
      parameters.entries.filter fun e' => !st.edited.contains (e.1, e'.1) :=
    List.filter_congr fun e' _ => by simp [happlied]
  unfold resets
  rw [hfilter]
  exact styleParameters_unmatched hp e.1 n parameters.entries st

end Styles

/-- **Resets change the properties of one node only**, and of these only the ones that parameters stand for that have
not been applied. -/
theorem restyled_resets (n : Slot) (applied : List String) (parameters : Table StyleParameter) (t : Surface) :
    Surface.Restyled (fun k property => k = n ∧ ∃ parameter ∈ parameters.names, parameter ∉ applied ∧
      property ∈ Act.properties parameter) t ((p.resets applied parameters).foldl (Act.run p.value n) t) := by
  refine Surface.Restyled.foldl _ t fun u a ha => ?_
  obtain ⟨e', he', rfl⟩ := List.mem_map.1 ha
  obtain ⟨he', happlied⟩ := List.mem_filter.1 he'
  have hstyle := isStyle_resetAct p e'.1 e'.2
  refine (Act.restyled_run hstyle.1).mono fun k property hk => ?_
  rcases hk with ⟨hk, hproperty⟩ | ⟨⟨shown, hshown⟩, -⟩
  · exact ⟨hk, e'.1, List.mem_map_of_mem he', by simpa using happlied, edited_resetAct hproperty⟩
  · exact absurd hshown (hstyle.2 shown)

theorem looks_resets (hn : n < s.size) (applied : List String) (parameters : Table StyleParameter) :
    ((p.resets applied parameters).foldl (Act.run p.value n) s).looks n =
      (s.looks n).after (p.resets applied parameters) := by
  refine Act.looks_foldl_of_isStyle _ (fun a ha => ?_) hn
  obtain ⟨e', -, rfl⟩ := List.mem_map.1 ha
  exact isStyle_resetAct p e'.1 e'.2

end Pass

namespace Engine
open Pass

variable {H W : Type} {g : Engine Surface H W} {op : Operation} {p : Pass Surface} {e : String × List Dependency}
  {before : List Dependency} {condition : Option String} {parameters : Table StyleParameter} {n : Slot}
  {st st' : State Surface}

/-- **A style dependency that does not match resets what has not been applied, and does nothing else**: a property of
its node changes only through a parameter of its own that is about the property and that no matching dependency of the
node has applied before. -/
theorem reset_spares_applied (hg : g.effector = inlineStyles) (hop : g.passOf? op = some p)
    (h : p.Styles g.surface e before condition parameters n st st') (hc : condition ≠ some p.value) :
    Surface.Restyled (fun k property => k = n ∧ ∃ parameter ∈ parameters.names, parameter ∉ p.applied before ∧
      property ∈ Act.properties parameter) st.surface st'.surface ∧
    st'.surface.looks n = (st.surface.looks n).after (p.resets (p.applied before) parameters) := by
  rw [h.surface_of_unmatched ((effector_passOf? hop).trans hg) hc]
  exact ⟨restyled_resets n _ parameters st.surface, looks_resets h.lt_size _ parameters⟩

/-- A property that a matching style dependency has changed is left alone by the ones behind it that do not match. -/
def SparesSet (g : Engine Surface H W) : Prop :=
  ∀ {op p e before between condition parameters parameters' n st st' u u' property}, g.passOf? op = some p →
    p.Styles g.surface e before (some p.value) parameters n st st' →
    p.Styles g.surface e (before ++ .style (some p.value) parameters :: between) condition parameters' n u u' →
    condition ≠ some p.value → st'.surface.looks n property ≠ st.surface.looks n property →
    u'.surface.looks n property = u.surface.looks n property

/-! ## Parameters that overlap -/

def aligned : Table StyleParameter :=
  .ofList [("align", { value := { text := "top" } }), ("color", { value := { text := "red" } })]

def positioned : Table StyleParameter :=
  .ofList [("position", { value := { text := "left" } }), ("color", { value := { text := "blue" } })]

/-- A label that one value aligns and colours, and another one positions and colours. -/
def overlappingEntry : String × List Dependency :=
  ("label", [.style (some "1") aligned, .style (some "2") positioned])

def overlapping : Engine Surface Empty Unit :=
  (mounted [{ tag := "p", id := "label:main" }] {} ∅ ()).perform
    (.start "main" { store := .ofList [("x", { dependents := .ofList [overlappingEntry] })] })

/-- The pass that aligns the label. -/
def aligning : Pass Surface where
  effector := inlineStyles
  options := {}
  instanceId := "main"
  value := "1"
  dependents := .ofList [overlappingEntry]

def unaligned : State Surface := aligning.begin overlapping.surface

def alignedState : State Surface := aligning.restyle "label" (some "1") aligned 0 unaligned

def positionedState : State Surface := aligning.restyle "label" (some "2") positioned 0 alignedState

theorem styles_aligned :
    aligning.Styles overlapping.surface overlappingEntry [] (some "1") aligned 0 unaligned alignedState :=
  .of_located ⟨[], [], [], rfl, rfl, rfl, rfl⟩ rfl (by decide +kernel)

theorem styles_positioned :
    aligning.Styles overlapping.surface overlappingEntry [.style (some "1") aligned] (some "2") positioned 0
      alignedState positionedState :=
  .of_located ⟨[], [], [.style (some "1") aligned], rfl, rfl, rfl, rfl⟩ rfl (by decide +kernel)

theorem passOf?_overlapping : overlapping.passOf? (.write "main" "x" (.text "1")) = some aligning := rfl

/-- The second dependency has a colour, too, and does not reset it. -/
theorem reset_spares_colour : positionedState.surface.looks 0 "color" = some { value := "red" } := by
  have hlooks := (reset_spares_applied rfl passOf?_overlapping styles_positioned (by decide)).2
  rw [hlooks]
  decide +kernel

/-- **Setting a property does not spare it**: the label is aligned through one parameter, and the reset of another one
takes that back. -/
theorem not_sparesSet_overlapping : ¬ overlapping.SparesSet := fun h => by
  have hchanged : alignedState.surface.looks 0 "align-self" ≠ unaligned.surface.looks 0 "align-self" := by
    decide +kernel
  have hleft := h passOf?_overlapping styles_aligned styles_positioned (by decide) hchanged
  exact absurd hleft (by decide +kernel)

end Engine
end BoundPage
