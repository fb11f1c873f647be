import BoundPage.Engine.Dispatch
import BoundPage.Surface.Target
/-!
# Pages in a browser

A browser page makes the changes it is asked for and reports each of them as an edit.  It answers the empty text for a
style property that is not set, so an empty style counts as none.

The host of the page receives the messages that nobody else handles, and may throw something instead of an answer.
What it does is not known here; it is given as a `PageHost`.  What goes wrong in a call is thrown as a text.
-/
namespace BoundPage

/-- One change of the page. -/
inductive PageEdit where
  | setStyle (node : Slot) (property : String) (value : Option String) (important : Bool)
  | setText (node : Slot) (text : String)
  | cloneNode (template : Slot) (id : String)
  | substituteText (node : Slot) (placeholder replacement : String)
  | remove (node : Slot)
  | appendChild (parent child : Slot)
deriving DecidableEq, Repr

/-- A page and the changes made to it, in order. -/
structure BrowserPage where
  surface : Surface := ∅
  edits : List PageEdit := []

namespace BrowserPage

/-- The page after an edit. -/
def edit (p : BrowserPage) (e : PageEdit) (surface : Surface) : BrowserPage := ⟨surface, p.edits ++ [e]⟩

instance : RenderTarget BrowserPage where
  locate p k := p.surface.locate k
  locateExternal p k := p.surface.externals k.text
  parent p n := (p.surface.node n).parent
  children p n := (p.surface.node n).children
  attributeOf p n name := (p.surface.node n).attributes.get? name
  style p n property := (p.surface.style n property).filter fun v => !v.isEmpty
  setStyle p n property value important :=
    p.edit (.setStyle n property value important) (p.surface.setStyle n property value important)
  setText p n text := p.edit (.setText n text) (p.surface.setText n text)
  cloneNode p n k :=
    let (copy, surface) := p.surface.clone n k.text
    (copy, p.edit (.cloneNode n k.text) surface)
  substituteText p n placeholder replacement :=
    p.edit (.substituteText n placeholder replacement) (p.surface.substitute n placeholder replacement)
  remove p n := p.edit (.remove n) (p.surface.remove n)
  appendChild p parent child := p.edit (.appendChild parent child) (p.surface.append parent child)

end BrowserPage

/-! ## Hosts -/

/-- A message that was sent to the host: the handler, the instance and the payload. -/
structure HostMessage where
  handler : String
  instanceId : String
  payload : Option String
deriving DecidableEq, Repr

/-- What a host throws: a text, or something else, of which a text tells what it is. -/
inductive Thrown where
  | text (s : String)
  | other (shown : String)
deriving DecidableEq, Repr

def Thrown.message : Thrown → String
  | text s => s
  | other shown => shown

/-- **The host of a page**: what it keeps after a message, and whether it answers or throws.  It may go by all of the
message and by what it has kept. -/
structure PageHost (W : Type) where
  receive : HostMessage → W → W × Except Thrown Unit

/-- The messages that a host got, in order. -/
structure HostLog where
  messages : List HostMessage := []

/-- A host that keeps its messages and throws by handler. -/
def PageHost.scripted (throws : Table Thrown) : PageHost HostLog where
  receive message log :=
    ({ messages := log.messages ++ [message] }, (throws.get? message.handler).elim (.ok ()) .error)

namespace Thrown

/-- A value that is no text, by the word for it. -/
def value (word : String) : Thrown := .other ("JsValue(" ++ word ++ ")")

def number : Json.Number → Thrown
  | .int n => value (toString n)
  | .float x => value (Scalar.decimal x).render

def boolean (b : Bool) : Thrown := value (toString b)

def null : Thrown := value "null"

def undefined : Thrown := value "undefined"

end Thrown

/-! ## Calls -/

/-- An engine in a browser; all of the host's handlers are the host itself. -/
abbrev Browser (W : Type := HostLog) := Engine BrowserPage (PageHost W) W

/-- Why a call throws. -/
inductive BrowserError where
  /-- A text is not what it should be; the message is the reader's. -/
  | malformed
  | unknownInstance (id : String)
  | handler (error : HandlerError)
deriving DecidableEq, Repr

/-- The message of an error, unless it is a reader's. -/
def BrowserError.message? : BrowserError → Option String
  | malformed => none
  | unknownInstance id => some ("Instance '" ++ id ++ "' is not registered")
  | handler e => some e.message

/-- What the page does with the event of an interaction. -/
structure InteractionFlags where
  stopPropagation : Bool
  preventDefault : Bool
deriving DecidableEq, Repr

def InteractionFlags.ofReport (r : InteractionReport) : InteractionFlags := ⟨r.stopPropagation, r.preventDefault⟩

namespace Browser

variable {W : Type}

/-- Sends a message to the host, which answers or throws. -/
def tellHost {S : Type} : Runner S (PageHost W) W := fun host call g =>
  let message : HostMessage :=
    { handler := call.name, instanceId := call.instanceId, payload := call.payload.map Json.compact }
  let (kept, answer) := host.receive message g.host
  { state := { g with host := kept }
    answer := answer.mapError fun thrown => .failed call.name thrown.message }

/-- Opens a page, with or without a host for messages; it starts from what the host has kept. -/
def openWith (page : Surface) (host : Option (PageHost W)) (kept : W) (options : Option String) :
    Except BrowserError (Browser W) :=
  match options.elim (some {}) Options.ofText? with
  | none => .error .malformed
  | some options =>
    let g : Browser W := Engine.new { surface := page } kept
    .ok { g with options, handlers := { g.handlers with fallback := host.map .host } }

/-- Opens a page whose host, if it has one, throws by handler. -/
def new (page : Surface) (throws : Option (Table Thrown)) (options : Option String) : Except BrowserError Browser :=
  openWith page (throws.map .scripted) {} options

variable (g : Browser W)

/-- Starts an instance and places its external children. -/
def init (id store : String) (externals : Option String) : Ran (Browser W) (Except BrowserError Unit) :=
  (g.startText id store externals).andThen fun g ok =>
    if ok then (g.refresh id).map fun _ => .ok () else ⟨g, .error .malformed, []⟩

def handleInteraction (id actions : String) (event : Option String) :
    Ran (Browser W) (Except BrowserError InteractionFlags) :=
  (g.interact tellHost id actions event).map fun
    | .ok report => .ok (.ofReport report)
    | .error (.unknownInstance id) => .error (.unknownInstance id)
    | .error .malformedActions => .error .malformed

def appliedCount (outcomes : List WriteOutcome) : Nat := outcomes.countP (·.isApplied)

/-- A name and a boolean, as a list of two. -/
def pair? : Json.Document → Option (String × Bool)
  | .arr [name, value] => do return (← Json.Decode.string name, ← Json.Decode.boolean value)
  | _ => none

def setManyBooleans (id values : String) : Ran (Browser W) (Except BrowserError Nat) :=
  match Json.Decode.ofText? (Json.Decode.list pair?) values with
  | none => ⟨g, .error .malformed, []⟩
  | some values => (Engine.setManyBooleans g id values).map fun outcomes => .ok (appliedCount outcomes)

def setForAll (name : String) (value : Scalar) : Ran (Browser W) Nat := (Engine.setForAll g name value).map appliedCount

def messageHost (id name : String) (payload : Option String) : Ran (Browser W) (Except BrowserError Unit) :=
  match payload.elim (some none) fun text => (Json.read? text).map some with
  | none => ⟨g, .error .malformed, []⟩
  | some payload =>
    (Engine.messageHost tellHost g id name payload none).map fun
      | .ok _ => .ok ()
      | .error e => .error (.handler e)

end Browser
end BoundPage
