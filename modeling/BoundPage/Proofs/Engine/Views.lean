import BoundPage.Engine.Dispatch
import BoundPage.Proofs.Write.Views
/-!
# Engines over a view

Two engines that hold the same instances, one of them over a view of the other one's page, do the same: what they are
asked for keeps them alike and is answered alike (`Ran.Alike`), as long as this is so for the host's handlers.
-/
namespace BoundPage
open RenderTarget

/-! ## Runs that are alike -/

namespace Ran

variable {σ τ α β ι : Type} {R : σ → τ → Prop}

theorem map_map {γ : Type} (f : α → β) (g : β → γ) (r : Ran σ α) : (r.map f).map g = r.map fun a => g (f a) := rfl

/-- What is made of the answers can be made of every answer. -/
theorem map_each (p : α → β) (f : σ → ι → Ran σ α) : ∀ (is : List ι) (s : σ),
    (Ran.each f s is).map (List.map p) = Ran.each (fun s i => (f s i).map p) s is
  | [], _ => rfl
  | i :: is, s => by
    have hrest := map_each p f is (f s i).state
    exact congrArg (fun rest => Ran.andThen ⟨(f s i).state, p (f s i).answer, (f s i).events⟩ fun _ a =>
      Ran.map (a :: ·) rest) hrest

/-- **Two runs answer and say the same**, and their states are related. -/
structure Alike (R : σ → τ → Prop) (r : Ran σ α) (r' : Ran τ α) : Prop where
  state : R r.state r'.state
  answer : r'.answer = r.answer
  events : r'.events = r.events

namespace Alike

variable {r : Ran σ α} {r' : Ran τ α}

theorem map_congr {f f' : α → β} (h : Alike R r r') (hf : ∀ a, f' a = f a) : Alike R (r.map f) (r'.map f') :=
  ⟨h.state, (congrArg f' h.answer).trans (hf r.answer), h.events⟩

theorem map (f : α → β) (h : Alike R r r') : Alike R (r.map f) (r'.map f) := h.map_congr fun _ => rfl

theorem andThen {f : σ → α → Ran σ β} {f' : τ → α → Ran τ β} (h : Alike R r r')
    (hf : ∀ s t a, R s t → Alike R (f s a) (f' t a)) : Alike R (r.andThen f) (r'.andThen f') := by
  have hnext := hf r.state r'.state r.answer h.state
  unfold Ran.andThen
  rw [h.answer, h.events]
  exact ⟨hnext.state, hnext.answer, congrArg (r.events ++ ·) hnext.events⟩

theorem after (events : List Event) (h : Alike R r r') : Alike R (r.after events) (r'.after events) :=
  ⟨h.state, h.answer, congrArg (events ++ ·) h.events⟩

theorem each {f : σ → ι → Ran σ α} {f' : τ → ι → Ran τ α} (hf : ∀ s t i, R s t → Alike R (f s i) (f' t i)) :
    ∀ (is : List ι) {s : σ} {t : τ}, R s t → Alike R (Ran.each f s is) (Ran.each f' t is)
  | [], _, _, h => ⟨h, rfl, rfl⟩
  | i :: is, s, t, h => (hf s t i h).andThen fun _ _ a h => (each hf is h).map (a :: ·)

end Alike
end Ran

/-! ## Engines -/

variable {S T H W : Type}

namespace Engine

/-- **An engine is the same as another one**, but that its page is the view. -/
structure Viewed (view : S → T) (g : Engine S H W) (g' : Engine T H W) : Prop where
  surface : g'.surface = view g.surface
  effector : IsView.Effect view g.effector g'.effector
  options : g'.options = g.options
  instances : g'.instances = g.instances
  handlers : g'.handlers = g.handlers
  host : g'.host = g.host

/-- What two engines do is the same. -/
abbrev Alike {α : Type} (view : S → T) (r : Ran (Engine S H W) α) (r' : Ran (Engine T H W) α) : Prop :=
  Ran.Alike (Viewed view) r r'

/-- Handlers do the same with engines that are the same. -/
def RunnersAlike (view : S → T) (run : Runner S H W) (run' : Runner T H W) : Prop :=
  ∀ h call g g', Viewed view g g' → Alike view (run h call g) (run' h call g')

namespace Viewed

variable {view : S → T} {g : Engine S H W} {g' : Engine T H W} (h : Viewed view g g')
include h

theorem instance? (id : String) : g'.instance? id = g.instance? id := by
  unfold Engine.instance?
  rw [h.instances]

theorem current (id name : String) : g'.current id name = g.current id name := by
  unfold Engine.current
  rw [h.instance?]

theorem ran {α : Type} (answer : α) (events : List Event) : Alike view ⟨g, answer, events⟩ ⟨g', answer, events⟩ :=
  ⟨h, rfl, rfl⟩

theorem withInstances (instances : Table Instance) :
    Viewed view { g with instances } { g' with instances } :=
  { h with instances := rfl }

/-! ### Instances -/

theorem start (id : String) (i : Instance) : Alike view (g.start id i) (g'.start id i) := by
  unfold Engine.start
  rw [h.instances]
  exact ⟨h.withInstances _, rfl, rfl⟩

theorem startText (id store : String) (externals : Option String) :
    Alike view (g.startText id store externals) (g'.startText id store externals) := by
  unfold Engine.startText
  dsimp only
  split
  · exact (h.start id _).map _
  · exact h.ran _ _

theorem teardown (id : String) : Alike view (g.teardown id) (g'.teardown id) := by
  unfold Engine.teardown
  rw [h.instances]
  split
  · exact ⟨h.withInstances _, rfl, rfl⟩
  · exact h.ran _ _

theorem get (id name : String) : Alike view (g.get id name) (g'.get id name) := by
  unfold Engine.get
  rw [h.current]
  split <;> exact h.ran _ _

theorem skip (reason : SkipReason) (events : List Event) : Alike view (g.skip reason events) (g'.skip reason events) :=
  h.ran _ _

theorem withCurrent (id name : String) {f : String → Ran (Engine S H W) WriteOutcome}
    {f' : String → Ran (Engine T H W) WriteOutcome} (hf : ∀ value, Alike view (f value) (f' value)) :
    Alike view (g.withCurrent id name f) (g'.withCurrent id name f') := by
  unfold Engine.withCurrent
  rw [h.current]
  split
  · exact hf _
  · exact h.skip _ _

/-! ### Operands and messages -/

theorem resolve (id : String) (event : Option String) (p : ActionParameter) :
    g'.resolve id event p = g.resolve id event p := by
  unfold Engine.resolve
  rw [h.instance?]

theorem resolveText (id : String) (event : Option String) (p : ActionParameter) :
    g'.resolveText id event p = g.resolveText id event p := by
  unfold Engine.resolveText
  rw [h.resolve]

section

variable {run : Runner S H W} {run' : Runner T H W} (hrun : RunnersAlike view run run')
include hrun

theorem messageHost (id name : String) (payload reference : Option Json) :
    Alike view (g.messageHost run id name payload reference) (g'.messageHost run' id name payload reference) := by
  unfold Engine.messageHost
  rw [h.handlers]
  split
  · exact h.ran _ _
  · exact h.ran _ _
  · exact hrun _ _ g g' h

theorem sendMessage (id handler : String) (payload reference : Option Json) :
    Alike view (g.sendMessage run id handler payload reference) (g'.sendMessage run' id handler payload reference) := by
  have hm := h.messageHost hrun id handler payload reference
  unfold Engine.sendMessage
  dsimp only
  rw [hm.answer, hm.events]
  exact ⟨hm.state, rfl, rfl⟩

end

variable [RenderTarget S] [RenderTarget T] (hv : IsView view)
include hv

/-! ### Writes -/

theorem write (id name : String) (value : Scalar) : Alike view (g.write id name value) (g'.write id name value) := by
  unfold Engine.write
  rw [h.instance?]
  cases g.instance? id with
  | none => exact h.skip _ _
  | some i =>
    have hwrite := hv.write h.effector g.options id g.surface i name value
    dsimp only
    rw [h.options, h.surface, hwrite, h.instances]
    exact ⟨{ h with surface := rfl, options := rfl, instances := rfl }, rfl, rfl⟩

theorem toggle (id name : String) : Alike view (g.toggle id name) (g'.toggle id name) :=
  h.withCurrent id name fun _ => h.write hv id name _

theorem increment (id name : String) (amount : Int) (min? max? : Option Int) :
    Alike view (g.increment id name amount min? max?) (g'.increment id name amount min? max?) :=
  h.withCurrent id name fun value => by
    split
    · exact h.write hv id name _
    · exact h.skip _ _

theorem insert (id name : String) (value : Option String) (place : Place) :
    Alike view (g.insert id name value place) (g'.insert id name value place) :=
  h.withCurrent id name fun current => by
    split
    · split
      · exact h.write hv id name _
      · exact h.skip _ _
    · exact h.skip _ _

theorem clear (id name : String) : Alike view (g.clear id name) (g'.clear id name) :=
  h.withCurrent id name fun _ => h.write hv id name _

theorem setManyBooleans (id : String) (values : List (String × Bool)) :
    Alike view (g.setManyBooleans id values) (g'.setManyBooleans id values) :=
  .each (fun _ _ _ h => h.write hv id _ _) values h

theorem setForAll (name : String) (value : Scalar) : Alike view (g.setForAll name value) (g'.setForAll name value) := by
  unfold Engine.setForAll Engine.instanceIds
  rw [h.instances]
  exact .each (fun _ _ id h => h.write hv id name value) _ h

theorem refresh (id : String) : Alike view (g.refresh id) (g'.refresh id) := by
  unfold Engine.refresh
  rw [h.instance?]
  cases g.instance? id with
  | none => exact h.ran _ _
  | some i =>
    dsimp only
    rw [h.surface, hv.placePending, h.instances]
    exact ⟨{ h with surface := rfl, instances := rfl }, rfl, rfl⟩

/-! ### Actions -/

theorem count (id : String) (c : Count) (direction : Int) (event : Option String) :
    Alike view (g.count id c direction event) (g'.count id c direction event) := by
  unfold Engine.count
  simp only [h.resolveText]
  split
  · exact h.increment hv id ..
  · split
    · exact h.increment hv id ..
    · exact h.skip _ _

theorem setValue (id target : String) (p : ActionParameter) (type : ValueType) (event : Option String) :
    Alike view (g.setValue id target p type event) (g'.setValue id target p type event) := by
  unfold Engine.setValue
  rw [h.resolveText]
  dsimp only
  split
  · exact h.write hv id target _
  · exact h.skip _ _

variable {run : Runner S H W} {run' : Runner T H W} (hrun : RunnersAlike view run run')
include hrun

/-- **An action does the same.** -/
theorem act (id : String) (event : Option String) (a : Action) :
    Alike view (g.act run id event a) (g'.act run' id event a) := by
  cases a with
  | stopPropagation => exact h.ran _ _
  | preventDefault => exact h.ran _ _
  | toggle target => exact (h.toggle hv id target).map _
  | callHandler name => exact h.sendMessage hrun id _ none none
  | sendData target data =>
    unfold Engine.act
    dsimp only
    rw [h.resolve]
    split
    · exact h.sendMessage hrun id _ _ _
    · exact h.ran _ _
  | increment c => exact (h.count hv id c 1 event).map _
  | decrement c => exact (h.count hv id c (-1) event).map _
  | setValue target p type => exact (h.setValue hv id target p type event).map _
  | insert target value place =>
    have htext : g'.resolveText id event = g.resolveText id event := funext (h.resolveText id event)
    unfold Engine.act
    dsimp only
    rw [htext]
    exact (h.insert hv id target _ _).map _
  | clear target => exact (h.clear hv id target).map _
  | unknown name => exact h.ran _ _

theorem actOn (id : String) (event : Option String) (d : ActionDescriptor) :
    Alike view (g.actOn run id event d) (g'.actOn run' id event d) := by
  unfold Engine.actOn
  split
  · exact (h.act hv hrun id event _).after _
  · exact h.ran _ _

theorem dispatch (id : String) (ds : List ActionDescriptor) (event : Option String) :
    Alike view (g.dispatch run id ds event) (g'.dispatch run' id ds event) :=
  (Ran.Alike.each (fun _ _ d h => h.actOn hv hrun id event d) ds h).map _

/-- **An interaction does the same.** -/
theorem interact (id actions : String) (event : Option String) :
    Alike view (g.interact run id actions event) (g'.interact run' id actions event) := by
  unfold Engine.interact
  rw [h.instances]
  split
  · exact h.ran _ _
  · split
    · exact h.ran _ _
    · exact ((h.dispatch hv hrun id _ event).map _).after _

end Viewed
end Engine
end BoundPage
