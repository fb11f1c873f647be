import BoundPage.Browser
import BoundPage.Proofs.Engine.Views
import BoundPage.Session.Request
/-!
# A browser page is like the page itself

What is asked of a page in a browser could be asked of an engine that holds the page itself (`Browser.onPage`).  The
page goes the same way, and what the browser is answered follows from what the engine answers (`Browser.calls_agree`).
-/
namespace BoundPage
open RenderTarget

namespace BrowserPage

theorem counted_getD (v : Option String) : counted (some (v.getD "")) = counted v := by
  cases v <;> rfl

/-- **The page answers a text for every property**, the empty one where it is not set; this counts as none. -/
theorem style_eq (p : BrowserPage) (n : Slot) (property : String) :
    style p n property = counted (some ((p.surface.style n property).getD "")) := by
  rw [counted_getD]
  rfl

theorem isView : IsView BrowserPage.surface where
  locate _ _ := rfl
  locateExternal _ _ := rfl
  parent _ _ := rfl
  children _ _ := rfl
  attributeOf _ _ _ := rfl
  style p n property := by
    rw [style_eq, counted_counted, counted_getD]
    rfl
  setStyle _ _ _ _ _ := rfl
  setText _ _ _ := rfl
  cloneNode _ _ _ := rfl
  substituteText _ _ _ _ := rfl
  remove _ _ := rfl
  appendChild _ _ _ := rfl

end BrowserPage

namespace Browser

/-! ## Calls -/

/-- What can be asked of a page in a browser. -/
inductive Call where
  | init (store : String) (externals : Option String)
  | teardown
  | handleInteraction (actions : String) (event : Option String)
  | setBoolean (name : String) (value : Bool)
  | setString (name value : String)
  | getValue (name : String)
  | increment (name : String) (amount : Int) (min? max? : Option Int)
  | insert (name : String) (value place : Option String)
  | clear (name : String)
  | setManyBooleans (values : String)
  | setBooleanForAll (name : String) (value : Bool)
  | setStringForAll (name value : String)
  | messageHost (name : String) (payload : Option String)

/-- What a call answers if it does not throw. -/
inductive Value where
  | done
  | flag (b : Bool)
  | flags (f : InteractionFlags)
  | count (n : Nat)
  | text (t : Option String)

abbrev Result := Except BrowserError Value

def Result.ofWrite (outcome : WriteOutcome) : Result := .ok (.flag outcome.isApplied)

variable {W : Type}

def call (g : Browser W) (id : String) : Call → Ran (Browser W) Result
  | .init store externals => (g.init id store externals).map (.map fun _ => .done)
  | .teardown => (g.teardown id).map fun b => .ok (.flag b)
  | .handleInteraction actions event => (g.handleInteraction id actions event).map (.map .flags)
  | .setBoolean name value => (g.setBoolean id name value).map .ofWrite
  | .setString name value => (g.setString id name value).map .ofWrite
  | .getValue name => (g.get id name).map fun t => .ok (.text t)
  | .increment name amount min? max? => (g.increment id name amount min? max?).map .ofWrite
  | .insert name value place => (g.insert id name value (.ofMark? place)).map .ofWrite
  | .clear name => (g.clear id name).map .ofWrite
  | .setManyBooleans values => (g.setManyBooleans id values).map (.map .count)
  | .setBooleanForAll name value => (g.setForAll name (.boolean value)).map fun n => .ok (.count n)
  | .setStringForAll name value => (g.setForAll name (.text value)).map fun n => .ok (.count n)
  | .messageHost name payload => (g.messageHost id name payload).map (.map fun _ => .done)

def calls (g : Browser W) (cs : List (String × Call)) : Ran (Browser W) (List Result) :=
  Ran.each (fun g c => call g c.1 c.2) g cs

/-! ## The same calls without a browser -/

/-- An engine that holds the page itself. -/
abbrev Native (W : Type) := Engine Surface (PageHost W) W

namespace Native

/-- Makes a request, with the host of the page for the messages. -/
def ask (g : Native W) (id : String) (r : Session.Request) : Ran (Native W) Session.Answer :=
  Session.carryOut tellHost g id r

/-- Makes the requests that a call stands for: an instance is started, and then its external children are placed.
Nothing is asked if a text of the call is malformed. -/
def call (g : Native W) (id : String) : Call → Ran (Native W) Session.Answer
  | .init store externals =>
    (g.ask id (.startText store externals)).andThen fun g answer =>
      match answer with
      | .done => (ask g id .refresh).map fun _ => .done
      | _ => ⟨g, answer, []⟩
  | .teardown => g.ask id .teardown
  | .handleInteraction actions event => g.ask id (.interact actions event)
  | .setBoolean name value => g.ask id (.write name (.boolean value))
  | .setString name value => g.ask id (.write name (.text value))
  | .getValue name => g.ask id (.get name)
  | .increment name amount min? max? => g.ask id (.increment name amount min? max?)
  | .insert name value place => g.ask id (.insert name value place)
  | .clear name => g.ask id (.clear name)
  | .setManyBooleans values =>
    match Json.Decode.ofText? (Json.Decode.list pair?) values with
    | some values => g.ask id (.setMany values)
    | none => ⟨g, .malformedJson, []⟩
  | .setBooleanForAll name value => g.ask id (.setForAll name (.boolean value))
  | .setStringForAll name value => g.ask id (.setForAll name (.text value))
  | .messageHost name payload => g.ask id (.message name payload none)

def calls (g : Native W) (cs : List (String × Call)) : Ran (Native W) (List Session.Answer) :=
  Ran.each (fun g c => call g c.1 c.2) g cs

end Native

/-- **What a browser is told of an answer.**  Other answers than these are not given to the requests of calls. -/
def Result.ofAnswer : Session.Answer → Result
  | .done => .ok .done
  | .flag b => .ok (.flag b)
  | .interaction report => .ok (.flags (.ofReport report))
  | .unknownInstance id => .error (.unknownInstance id)
  | .write outcome => .ok (.flag outcome.isApplied)
  | .writes outcomes => .ok (.count (appliedCount outcomes))
  | .text t => .ok (.text t)
  | .handler (.ok _) => .ok .done
  | .handler (.error e) => .error (.handler e)
  | _ => .error .malformed

/-! ## Agreement -/

/-- **A host that is sent the same messages does the same**, whatever it does. -/
theorem tellHost_alike {S T : Type} (view : S → T) :
    Engine.RunnersAlike view (tellHost (W := W)) (tellHost (W := W)) := fun _ _ _ _ h => by
  unfold tellHost
  rw [h.host]
  exact ⟨{ h with host := rfl }, rfl, rfl⟩

section

variable {g : Browser W} {g' : Native W} (h : Engine.Viewed BrowserPage.surface g g') (id : String)
include h

theorem init_agrees (store : String) (externals : Option String) :
    Engine.Alike BrowserPage.surface (call g id (.init store externals))
      ((Native.call g' id (.init store externals)).map .ofAnswer) := by
  have hstart := h.startText id store externals
  have hrefresh := hstart.state.refresh BrowserPage.isView id
  unfold call Native.call Native.ask Session.carryOut Browser.init
  dsimp only [Ran.map, Ran.andThen]
  rw [hstart.answer, hstart.events]
  cases (g.startText id store externals).answer with
  | false => exact ⟨hstart.state, rfl, rfl⟩
  | true => exact ⟨hrefresh.state, rfl, congrArg _ hrefresh.events⟩

theorem handleInteraction_agrees (actions : String) (event : Option String) :
    Engine.Alike BrowserPage.surface (call g id (.handleInteraction actions event))
      ((Native.call g' id (.handleInteraction actions event)).map .ofAnswer) := by
  have hinteract := h.interact BrowserPage.isView (tellHost_alike _) id actions event
  refine ⟨hinteract.state, ?_, hinteract.events⟩
  unfold call Native.call Native.ask Session.carryOut Browser.handleInteraction
  dsimp only [Ran.map]
  rw [hinteract.answer]
  rcases (g.interact tellHost id actions event).answer with ⟨⟨⟩⟩ | ⟨⟩ <;> rfl

theorem setManyBooleans_agrees (values : String) :
    Engine.Alike BrowserPage.surface (call g id (.setManyBooleans values))
      ((Native.call g' id (.setManyBooleans values)).map .ofAnswer) := by
  unfold call Native.call Browser.setManyBooleans
  dsimp only
  cases Json.Decode.ofText? (Json.Decode.list pair?) values with
  | none => exact h.ran (.error .malformed : Result) []
  | some values =>
    exact (h.setManyBooleans BrowserPage.isView id values).map fun os => (.ok (.count (appliedCount os)) : Result)

theorem messageHost_agrees (name : String) (payload : Option String) :
    Engine.Alike BrowserPage.surface (call g id (.messageHost name payload))
      ((Native.call g' id (.messageHost name payload)).map .ofAnswer) := by
  unfold call Native.call Native.ask Session.carryOut Browser.messageHost
  cases payload with
  | none =>
    dsimp only [Session.readOptional?, Option.elim]
    simp only [Ran.map_map]
    exact (h.messageHost (tellHost_alike _) id name none none).map_congr fun r => by cases r <;> rfl
  | some text =>
    dsimp only [Session.readOptional?, Option.elim]
    cases Json.read? text with
    | none => exact h.ran (.error .malformed : Result) []
    | some payload =>
      simp only [Option.map_some, Ran.map_map]
      exact (h.messageHost (tellHost_alike _) id name (some payload) none).map_congr fun r => by cases r <;> rfl

/-- **A call does the same in the browser and without it.** -/
theorem call_agrees (c : Call) :
    Engine.Alike BrowserPage.surface (call g id c) ((Native.call g' id c).map .ofAnswer) := by
  have hv := BrowserPage.isView
  have hwrite : ∀ {r : Ran (Browser W) WriteOutcome} {r' : Ran (Native W) WriteOutcome},
      Engine.Alike BrowserPage.surface r r' →
      Engine.Alike BrowserPage.surface (r.map Result.ofWrite) ((r'.map Session.Answer.write).map Result.ofAnswer) :=
    fun h => h.map Result.ofWrite
  have hcount : ∀ {r : Ran (Browser W) (List WriteOutcome)} {r' : Ran (Native W) (List WriteOutcome)},
      Engine.Alike BrowserPage.surface r r' →
      Engine.Alike BrowserPage.surface ((r.map appliedCount).map fun n => (.ok (.count n) : Result))
        ((r'.map Session.Answer.writes).map Result.ofAnswer) :=
    fun h => h.map fun os => (.ok (.count (appliedCount os)) : Result)
  cases c with
  | init store externals => exact init_agrees h id store externals
  | teardown => exact (h.teardown id).map fun b => (.ok (.flag b) : Result)
  | handleInteraction actions event => exact handleInteraction_agrees h id actions event
  | setBoolean name value => exact hwrite (h.write hv id name (.boolean value))
  | setString name value => exact hwrite (h.write hv id name (.text value))
  | getValue name => exact (h.get id name).map fun t => (.ok (.text t) : Result)
  | increment name amount min? max? => exact hwrite (h.increment hv id name amount min? max?)
  | insert name value place => exact hwrite (h.insert hv id name value (.ofMark? place))
  | clear name => exact hwrite (h.clear hv id name)
  | setManyBooleans values => exact setManyBooleans_agrees h id values
  | setBooleanForAll name value => exact hcount (h.setForAll hv name (.boolean value))
  | setStringForAll name value => exact hcount (h.setForAll hv name (.text value))
  | messageHost name payload => exact messageHost_agrees h id name payload

end

/-- The engine that holds the page itself, with the options and the host of the page in the browser. -/
def Native.new (page : Surface) (host : Option (PageHost W)) (kept : W) (options : Options) : Native W :=
  let g : Native W := Engine.new page kept
  { g with options, handlers := { g.handlers with fallback := host.map .host } }

end Browser
end BoundPage
