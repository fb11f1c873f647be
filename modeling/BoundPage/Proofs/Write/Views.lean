import BoundPage.Proofs.Views
import BoundPage.Write.Variable
/-!
# Writes to a view

A pass over a view of a page does what the pass over the page does, if the effects of style parameters are viewed in the
same way; and so does a write.
-/
namespace BoundPage
open RenderTarget

variable {S T : Type}

/-- An effect of style parameters is another one on the view. -/
def IsView.Effect (view : S → T) (e : StyleEffector S) (e' : StyleEffector T) : Prop :=
  ∀ s n parameter value important, e' (view s) n parameter value important = view (e s n parameter value important)

namespace Pass

/-- The same pass with another effect of style parameters. -/
def withEffect (p : Pass S) (effector : StyleEffector T) : Pass T where
  effector := effector
  options := p.options
  instanceId := p.instanceId
  value := p.value
  dependents := p.dependents

/-- A state of a pass as one of a pass over the view of the page. -/
def State.seen (view : S → T) (st : State S) : State T := { st with surface := view st.surface }

end Pass

variable [RenderTarget S] [RenderTarget T]

namespace IsView

variable {view : S → T} (hv : IsView view) {effector : StyleEffector T}
include hv

theorem showText (p : Pass S) (k : NodeKey) (st : Pass.State S) :
    (p.withEffect effector).showText k (st.seen view) = Pass.State.seen view <$> p.showText k st := by
  unfold Pass.showText
  rw [map_bind]
  show RenderTarget.require (view st.surface) k >>= _ = _
  rw [hv.require]
  refine bind_congr fun n => congrArg Except.ok ?_
  show Pass.State.say { st.seen view with surface := RenderTarget.setText (view st.surface) n p.value } _ = _
  rw [hv.setText]
  rfl

theorem setVisible (k : NodeKey) (visible : Bool) (st : Pass.State S) :
    Pass.setVisible k visible (st.seen view) = Pass.State.seen view <$> Pass.setVisible k visible st := by
  unfold Pass.setVisible
  rw [map_bind]
  show RenderTarget.require (view st.surface) k >>= _ = _
  rw [hv.require]
  refine bind_congr fun n => congrArg Except.ok ?_
  dsimp only [Pass.State.seen]
  rw [hv.detect, hv.setStyle, hv.refreshSpacing]
  rfl

theorem rebuildList (p : Pass S) (k : NodeKey) (ds : List Dependency) (st : Pass.State S) :
    (p.withEffect effector).rebuildList k ds (st.seen view) = Pass.State.seen view <$> p.rebuildList k ds st := by
  unfold Pass.rebuildList
  rw [map_bind]
  show RenderTarget.require (view st.surface) k >>= _ = _
  rw [hv.require]
  refine bind_congr fun n => ?_
  simp only [Pass.State.seen, hv.parent, hv.destroyAll, hv.materialize, Prod.map]
  split <;> rfl

variable {p : Pass S} (he : Effect view p.effector effector)
include he

theorem resetParameter (s : S) (n : Nat) (parameter : String) (style : StyleParameter) :
    (p.withEffect effector).resetParameter (view s) n parameter style =
      view (p.resetParameter s n parameter style) := by
  unfold Pass.resetParameter
  cases style.fallback with
  | some v => exact he s n parameter v.text v.important
  | none =>
    by_cases hz : p.options.resetsToZero parameter
    · exact (if_pos hz).trans ((hv.setStyle ..).trans (congrArg view (if_pos hz).symm))
    · exact (if_neg hz).trans ((he ..).trans (congrArg view (if_neg hz).symm))

theorem styleParameter (element : String) (n : Nat) (matched : Bool) (st : Pass.State S)
    (entry : String × StyleParameter) :
    (p.withEffect effector).styleParameter element n matched (st.seen view) entry =
      (p.styleParameter element n matched st entry).seen view := by
  have heffect : (p.withEffect effector).effector (st.seen view).surface n entry.1 entry.2.value.text
      entry.2.value.important = view _ := he ..
  have hreset : (p.withEffect effector).resetParameter (st.seen view).surface n entry.1 entry.2 = view _ :=
    hv.resetParameter he ..
  unfold Pass.styleParameter
  rw [heffect, hreset]
  cases matched with
  | true => rfl
  | false =>
    exact (apply_ite (Pass.State.seen view) (st.edited.contains (element, entry.1) = true) st
      { st with surface := p.resetParameter st.surface n entry.1 entry.2 }).symm

theorem applyStyle (k : NodeKey) (matched : Bool) (parameters : Table StyleParameter) (st : Pass.State S) :
    (p.withEffect effector).applyStyle k matched parameters (st.seen view) =
      Pass.State.seen view <$> p.applyStyle k matched parameters st := by
  unfold Pass.applyStyle
  rw [map_bind]
  show RenderTarget.require (view st.surface) k >>= _ = _
  rw [hv.require]
  refine bind_congr fun n => congrArg Except.ok ?_
  rw [List.foldl_hom _ (hv.styleParameter he k.element n matched)]
  rfl

/-- **A dependency does the same to the view of the page.** -/
theorem applyOne (k : NodeKey) (ds : List Dependency) (d : Dependency) (st : Pass.State S) :
    (p.withEffect effector).applyOne k ds d (st.seen view) = Pass.State.seen view <$> p.applyOne k ds d st := by
  cases d with
  | value =>
    have howned : (p.withEffect effector).ownedByTemplate k.element = p.ownedByTemplate k.element := rfl
    unfold Pass.applyOne
    dsimp only
    rw [howned, hv.rebuildList, hv.showText]
    split
    · rfl
    · split <;> rfl
  | visible condition => exact hv.setVisible ..
  | style condition parameters => exact hv.applyStyle he ..

theorem applyEach (k : NodeKey) (ds : List Dependency) : ∀ (left : List Dependency) (st : Pass.State S),
    (p.withEffect effector).applyEach k ds left (st.seen view) = (p.applyEach k ds left st).seen view
  | [], _ => rfl
  | d :: left, st => by
    rw [Pass.applyEach, Pass.applyEach, hv.applyOne he]
    cases p.applyOne k ds d st with
    | ok st' => exact applyEach k ds left st'
    | error err =>
      cases err with
      | nodeNotFound missing => rfl
      | detached template =>
        exact applyEach k ds left
          ({ st with detached := st.detached ++ [template] }.say (.detachedTemplate template))

theorem entry (st : Pass.State S) (e : String × List Dependency) :
    (p.withEffect effector).entry (st.seen view) e = (p.entry st e).seen view := by
  have heach : (p.withEffect effector).applyEach ((p.withEffect effector).key e.1) e.2 e.2 (st.seen view) = _ :=
    hv.applyEach he (p.key e.1) e.2 e.2 st
  unfold Pass.entry
  rw [heach]
  exact (apply_ite (Pass.State.seen view) (st.destroyed.contains e.1 = true) _ _).symm

/-- **A pass does the same to the view of the page**, and reports the same. -/
theorem run (s : S) : (p.withEffect effector).run (view s) = (p.run s).seen view := by
  unfold Pass.run
  rw [← List.foldl_hom _ (hv.entry he)]
  rfl

end IsView

/-- What a write has left, seen on the view of the page. -/
def Written.seen (view : S → T) (w : Written S) : Written T := { w with surface := view w.surface }

/-- **A write to an instance does the same to the view of the page.** -/
theorem IsView.write {view : S → T} (hv : IsView view) {effector : StyleEffector S} {effector' : StyleEffector T}
    (he : Effect view effector effector') (options : Options) (id : String) (s : S) (i : Instance) (name : String)
    (value : Scalar) :
    i.write effector' options id (view s) name value = (i.write effector options id s name value).seen view := by
  unfold Instance.write
  cases i.store.get? name with
  | none => rfl
  | some old =>
    dsimp only
    have hrun := hv.run (p := ⟨effector, options, id, value.render, old.dependents⟩) he s
    unfold Pass.withEffect at hrun
    rw [hrun]
    dsimp only [Pass.State.seen]
    rw [hv.placePending]
    rfl

end BoundPage
