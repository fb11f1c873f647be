import BoundPage.Proofs.Write.Changes
import BoundPage.Proofs.Write.Effects
import BoundPage.Proofs.Write.Nodewise
import BoundPage.Proofs.Write.Spacing
/-!
# Passes that only style

A pass with style dependencies only removes no node and makes none, so that it finds the node of every entry all the
time (`StylesOnly.remains`).  Of its calls only one kind shows a node that was hidden, and none hides one
(`visible_foldl_run`).
-/
namespace BoundPage
open RenderTarget

theorem Surface.AlikeBut.locate {changed : Slot → String → Prop} {s t : Surface} (h : AlikeBut changed s t)
    (key : NodeKey) : RenderTarget.locate t key = RenderTarget.locate s key :=
  Surface.find?_congr h.size h.sameTree.live (fun k => by rw [h.node]) key.text

theorem Surface.AlikeBut.visible {changed : Slot → String → Prop} {s t : Surface} (h : AlikeBut changed s t)
    {m : Slot} (hm : ¬ changed m "display") : isVisible t m = isVisible s m := by
  show (Surface.style t m "display" != _) = (Surface.style s m "display" != _)
  rw [h.style m "display" hm]

theorem Act.display_not_edited {parameter : String} (hdisplay : parameter ≠ "display")
    (hclamp : parameter ≠ "line-clamp") (v : Option String) (important : Bool) :
    "display" ∉ (ofParameter parameter v important).edited := by
  unfold ofParameter
  split
  · exact (by decide : "display" ∉ ["box-shadow"])
  · split
    · exact (by decide : "display" ∉ (align none).edited)
    · exact (by decide : "display" ∉ (align none).edited)
    · exact absurd rfl hclamp
    · exact (by decide : "display" ∉ (image none).edited)
    · exact (by decide : "display" ∉ (tiling none).edited)
    · exact fun h => hdisplay (List.mem_singleton.1 h).symm

namespace Pass

variable {p : Pass Surface} {s : Surface} {m : Slot}

theorem Call.restyled_run (hp : p.effector = inlineStyles) (s : Surface) (c : Call) :
    Surface.Restyled (fun k q => k = c.node ∧ q ∈ Act.properties c.parameter) s (c.run p s) := by
  unfold Call.run
  rw [hp]
  split
  · exact restyled_parameter s c.node c.parameter _ _
  · exact (Surface.restyled_setStyle s c.node c.parameter _ _).mono fun k q (h : k = c.node ∧ q = c.parameter) =>
      ⟨h.1, h.2 ▸ List.mem_cons_self⟩

theorem Call.run_give (hp : p.effector = inlineStyles) (s : Surface) (n : Slot) (parameter : String) (v : StyleValue) :
    Call.run p s ⟨n, parameter, .give v⟩ = Act.run p.value n s (.ofParameter parameter v.text v.important) := by
  rw [run_ofParameter]
  exact congrFun (congrFun (congrFun (congrFun (congrFun hp s) n) parameter) v.text) v.important

/-! ## Nothing comes and nothing goes -/

theorem StylesOnly.entries (h : p.StylesOnly) (hp : p.effector = inlineStyles)
    {es : List (String × List Dependency)} (hes : ∀ e ∈ es, e ∈ p.dependents.entries) :
    (∀ e left st, p.Stage es (p.begin s) e left st →
        Surface.Restyled (fun _ _ => True) s st.surface ∧ st.destroyed = []) ∧
      Surface.Restyled (fun _ _ => True) s (es.foldl p.entry (p.begin s)).surface ∧
      (es.foldl p.entry (p.begin s)).destroyed = [] :=
  stage_induction (I := fun t _ destroyed => Surface.Restyled (fun _ _ => True) s t ∧ destroyed = [])
    ⟨.refl _ s, rfl⟩ fun e d left st st' hst ⟨hs, hd⟩ hone => by
      obtain ⟨condition, parameters, rfl⟩ := h e (hes e hst.mem) d hst.mem_left
      have hch := change_of_applyOne hone
      generalize st'.surface = t, st'.table = table, st'.destroyed = destroyed at hch ⊢
      cases hch with
      | style _ => exact ⟨hs.trans ((restyled_styleParameters hp _ _ _ _ st).mono fun _ _ _ => trivial), hd⟩

/-- **The node of an entry stays on the page.** -/
theorem StylesOnly.remains (h : p.StylesOnly) (hp : p.effector = inlineStyles) {e : String × List Dependency}
    (he : e ∈ p.dependents.entries) {n : Slot} (hl : locate s (p.key e.1) = some n) : p.Remains s e n where
  reached := by
    obtain ⟨pre, post, hes⟩ := List.append_of_mem he
    have hd : (pre.foldl p.entry (p.begin s)).destroyed = [] :=
      (h.entries hp fun e' he' => hes ▸ List.mem_append_left _ he').2.2
    exact ⟨_, pre, post, [], hes, by rw [hd]; rfl, rfl, rfl⟩
  located e' left st hat := by
    rw [← hl]
    exact ((h.entries hp fun _ he => he).1 e' left st hat).1.locate (p.key e.1)

/-! ## What is visible -/

/-- The number of lines of the node is limited, or no longer so. -/
def Call.Clamps (c : Call) : Prop := c.parameter = "line-clamp" ∧ c.effect ≠ .zero

/-- **A call hides no node, and shows its own one if it clamps it.** -/
theorem Call.visible_run (hp : p.effector = inlineStyles) {c : Call} (hc : c.parameter ≠ "display")
    (hn : c.node < s.size) : isVisible (c.run p s) m ↔ isVisible s m ∨ c.node = m ∧ c.Clamps := by
  have hother : c.node ≠ m → isVisible (c.run p s) m = isVisible s m := fun hm =>
    (Call.restyled_run hp s c).visible fun h => hm h.1.symm
  by_cases hm : c.node = m
  · subst hm
    obtain ⟨n, parameter, effect⟩ := c
    cases effect with
    | zero =>
      have hkept : isVisible (Call.run p s ⟨n, parameter, .zero⟩) n = isVisible s n :=
        (Surface.restyled_setStyle s n parameter (some zeroWidth) false).visible fun h => hc h.2.symm
      rw [hkept, or_iff_left fun h => h.2.2 rfl]
    | give v =>
      have hact := Act.isStyle_ofParameter parameter v.text v.important
      rw [Call.run_give hp]
      by_cases hclamp : parameter = "line-clamp"
      · subst hclamp
        refine iff_of_true ?_ (.inr ⟨rfl, rfl, fun h => by cases h⟩)
        show ((Act.run p.value n s (.lineClamp v.text)).looks n).visible
        rw [Act.looks_run_of_isStyle (a := .lineClamp v.text) hact hn]
        cases v.text <;> rfl
      · have hedited := Act.display_not_edited hc hclamp v.text v.important
        rw [(Act.restyled_run hact.1).visible fun h => h.elim (fun h => hedited h.2) fun h =>
          h.1.elim hact.2, or_iff_left fun h => hclamp h.2.1]
  · rw [hother hm, or_iff_left fun h => hm h.1]

theorem visible_foldl_run (hp : p.effector = inlineStyles) : ∀ (calls : List Call) (s : Surface),
    (∀ c ∈ calls, c.parameter ≠ "display" ∧ c.node < s.size) →
      (isVisible (calls.foldl (Call.run p) s) m ↔ isVisible s m ∨ ∃ c ∈ calls, c.node = m ∧ c.Clamps)
  | [], s, _ => by simp
  | c :: calls, s, h => by
    obtain ⟨hc, hn⟩ := h c List.mem_cons_self
    have hsize := (Call.restyled_run hp s c).size
    rw [List.foldl_cons, visible_foldl_run hp calls (c.run p s) fun c' hc' => by
      rw [hsize]
      exact h c' (List.mem_cons_of_mem c hc'), Call.visible_run hp hc hn]
    simp [or_assoc]

/-- **A style dependency of the node is about its lines**, and limits them or takes a limit back: a reset to no width
does neither. -/
def Clamped (p : Pass Surface) (s : Surface) (m : Slot) : Prop :=
  ∃ e ∈ p.dependents.entries, locate s (p.key e.1) = some m ∧ ∃ condition parameters style,
    .style condition parameters ∈ e.2 ∧ parameters.get? "line-clamp" = some style ∧
      (condition = some p.value ∨ style.fallback.isSome ∨ p.options.resetsToZero "line-clamp" = false)

theorem resetEffect_ne_zero {parameter : String} {style : StyleParameter} :
    p.resetEffect parameter style ≠ .zero ↔ style.fallback.isSome ∨ p.options.resetsToZero parameter = false := by
  unfold resetEffect
  cases style.fallback with
  | some v => simp
  | none => cases p.options.resetsToZero parameter <;> simp

/-- **The nodes that the calls of a pass clamp** are those that its table says. -/
theorem StylesOnly.clamped_iff (h : p.StylesOnly) (hp : p.effector = inlineStyles) :
    (∃ c ∈ p.calls s, c.node = m ∧ c.Clamps) ↔ p.Clamped s m := by
  have hlocate : ∀ {e left st}, p.At s e left st → locate st.surface (p.key e.1) = locate s (p.key e.1) :=
    fun {e left st} hat => ((h.entries hp fun _ he => he).1 e left st hat).1.locate (p.key e.1)
  constructor
  · rintro ⟨c, hc, hm, hparameter, heffect⟩
    obtain ⟨e, d, left, st, hat, hc⟩ := mem_calls.1 hc
    obtain ⟨condition, parameters, rfl⟩ := h e hat.mem d hat.mem_left
    have hl := node_of_mem_callsOf hc
    rw [callsOf_style hl] at hc
    obtain ⟨-, style, hget, hwhat⟩ := mem_styleCalls.1 hc
    refine ⟨e, hat.mem, by rw [← hlocate hat, hl, hm], condition, parameters, style, hat.mem_left, hparameter ▸ hget,
      ?_⟩
    split at hwhat
    · next hmatched => exact .inl (by simpa using hmatched)
    · refine .inr (resetEffect_ne_zero.1 ?_)
      rw [← hparameter, ← hwhat.2]
      exact heffect
  · rintro ⟨e, he, hl, condition, parameters, style, hd, hget, hwhat⟩
    have hremains := h.remains hp he hl
    -- a matching dependency always calls
    have hmatched : ∀ {parameters style}, .style (some p.value) parameters ∈ e.2 →
        parameters.get? "line-clamp" = some style → ∃ c ∈ p.calls s, c.node = m ∧ c.Clamps := fun {ps x} hd hget => by
      obtain ⟨before, left, hds⟩ := List.append_of_mem hd
      obtain ⟨st, hat, hl⟩ := hremains.at hds
      refine ⟨⟨m, "line-clamp", .give x.value⟩, mem_calls.2 ⟨e, _, left, st, hat, ?_⟩, rfl, rfl, fun h => by cases h⟩
      rw [callsOf_style hl, beq_self_eq_true]
      exact mem_styleCalls.2 ⟨rfl, x, hget, rfl⟩
    by_cases hc : condition = some p.value
    · exact hmatched (hc ▸ hd) hget
    · obtain ⟨before, left, hds⟩ := List.append_of_mem hd
      obtain ⟨st, hat, hl⟩ := hremains.at hds
      by_cases hedited : (e.1, "line-clamp") ∈ st.edited
      · have happlied := (edited_at hat hds (by rw [hl]; rfl) "line-clamp").1 hedited
        obtain ⟨ps, x, hx, hget⟩ := exists_of_mem_applied happlied
        exact hmatched (hds ▸ List.mem_append_left _ hx) hget
      · have heffect := resetEffect_ne_zero.2 (hwhat.resolve_left hc)
        refine ⟨⟨m, "line-clamp", p.resetEffect "line-clamp" style⟩,
          mem_calls.2 ⟨e, _, left, st, hat, ?_⟩, rfl, rfl, heffect⟩
        rw [callsOf_style hl, beq_eq_false_iff_ne.2 hc]
        exact mem_styleCalls.2 ⟨rfl, style, hget, hedited, rfl⟩

end Pass
end BoundPage
