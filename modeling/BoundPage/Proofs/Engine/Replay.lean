import BoundPage.Proofs.Engine.Forests
import BoundPage.Proofs.Surface.Replay
/-!
# Replaying the page of a run

The page of a run is exported and mounted again.  A write stores the value of a style as it is given, whatever it is, so
a style can say more than its text: it is read back as it was exactly if it is legible (`replayed_alike_iff`).
-/
namespace BoundPage
namespace Engine

variable {H W : Type}

theorem runsThrough_after : ∀ (ops : List Operation) (g : Engine Surface H W), g.RunsThrough ops (g.after ops).surface
  | [], _ => .inl rfl
  | op :: ops, g => runsThrough_cons.2 (.inr (runsThrough_after ops (g.perform op)))

/-- A tidy run leaves a forest. -/
theorem TidyRun.forest_mounted {page : List Markup} {options : Options} {handlers : Handlers H} {host : W}
    {ops : List Operation} (h : (mounted page options handlers host).TidyRun ops) :
    ((mounted page options handlers host).after ops).surface.Forest :=
  (forest_iff_tidyRun rfl (Surface.forest_ofMarkup page)).2 h _ (runsThrough_after ops _)

/-! ## A style of any value -/

/-- A page with a label. -/
def labelled : Engine Surface Empty Unit := mounted [{ tag := "p", id := "label:main" }] {} ∅ ()

/-- A variable that gives the label a colour. -/
def colouring (e : StyleEntry) : Instance :=
  { store := .ofList [("x", { dependents := .ofList [("label",
      [.style (some "1") (.ofList [("color", { value := { text := e.value, important := e.important } })])])] })] }

/-- The page when the variable has been written. -/
def coloured (e : StyleEntry) : Surface :=
  (labelled.after [.start "main" (colouring e), .write "main" "x" (.text "1")]).surface

/-- **A write stores every style that has a value**, as it is. -/
theorem styleAt?_coloured {e : StyleEntry} (h : e.value ≠ "") :
    (coloured e).styleAt? "label:main" "color" = some e := by
  have hstyles : coloured e = labelled.surface.setStyle 0 "color" (some e.value) e.important := rfl
  have hempty : e.value.isEmpty = false := by simpa using h
  rw [hstyles]
  unfold Surface.setStyle
  simp only [hempty, Bool.false_eq_true, if_false]
  rfl

/-- **A page is replayed alike exactly where its styles are legible.**  A style is read back from its text as it was if
and only if it is legible.  A write stores every style that has a value, legible or not; a page stays legible as long as
legible styles are set, whatever else is done to it.  A page that is a forest, as every tidy run leaves one, is replayed
node by node with its styles read back. -/
theorem replayed_alike_iff (e : StyleEntry) (s : Surface) (page : List Markup) (cs : List Surface.Alteration)
    (options : Options) (handlers : Handlers H) (host : W) (ops : List Operation) :
    (e.reread = e ↔ e.Legible) ∧
    (e.value ≠ "" → (coloured e).styleAt? "label:main" "color" = some e) ∧
    ((∀ c ∈ cs, c.SetsLegible) → ((Surface.ofMarkup page).altered cs).Legible) ∧
    (s.Forest → s.Replays (.ofMarkup s.markup)) ∧
    ((mounted page options handlers host).TidyRun ops →
      ((mounted page options handlers host).after ops).surface.Forest) := by
  refine ⟨StyleEntry.reread_eq_self_iff, styleAt?_coloured, ?_, ?_, ?_⟩
  · intro hcs
    exact Surface.legible_altered (Surface.legible_ofMarkup page) hcs
  · intro hs
    exact hs.replays
  · intro hops
    exact hops.forest_mounted

/-- A legible colour is replayed. -/
theorem replayed_alike_coloured : (coloured ⟨"red", true⟩).styleAt? "label:main" "color" = some ⟨"red", true⟩ ∧
    (Surface.ofMarkup (coloured ⟨"red", true⟩).markup).styleAt? "label:main" "color" = some ⟨"red", true⟩ := by
  obtain ⟨hreread, hstored, -, hreplays, -⟩ :=
    replayed_alike_iff ⟨"red", true⟩ (coloured ⟨"red", true⟩) [] [] {} (∅ : Handlers Empty) () []
  have hforest : (coloured ⟨"red", true⟩).Forest :=
    (Surface.sameTree_setStyle _ 0 "color" (some "red") true).forest (Surface.forest_ofMarkup _)
  have hstyle := (hreplays hforest).style "label:main" "color"
  have hfirst : (coloured ⟨"red", true⟩).firstStyle? "label:main" "color" = some ⟨"red", true⟩ := by decide +kernel
  have hlegible : StyleEntry.reread ⟨"red", true⟩ = ⟨"red", true⟩ := hreread.2 (by decide +kernel)
  rw [hfirst, Option.map_some, hlegible] at hstyle
  exact ⟨hstored (by decide), hstyle⟩

/-- Every query reads the same style on the page mounted again. -/
def ReplayedAlike (s : Surface) : Prop :=
  ∀ id property, (Surface.ofMarkup s.markup).styleAt? id property = s.styleAt? id property

/-- **A value that ends in the mark is replayed as another value**, and as an important one; blanks around a value are
lost. -/
theorem not_replayedAlike_coloured :
    ¬ ReplayedAlike (coloured ⟨"red !important", false⟩) ∧ ¬ ReplayedAlike (coloured ⟨" red", false⟩) := by
  constructor
  · intro h
    have hcolour := h "label:main" "color"
    exact absurd hcolour (by decide +kernel)
  · intro h
    have hcolour := h "label:main" "color"
    exact absurd hcolour (by decide +kernel)

end Engine
end BoundPage
