import BoundPage.Action.Json
import BoundPage.Decimal.Reader
import BoundPage.Engine.Basic
import BoundPage.Reference
/-!
# Interactions

An interaction is a list of actions, which run one after the other, each to its end.  An action that is invalid, unknown
or skipped is reported and does not keep the rest from running.

What a host's handler does is not known here; it is given as a `Runner`.
-/
namespace BoundPage

/-- What a host's handlers do with an engine. -/
abbrev Runner (S H W : Type) := H → HandlerCall → Engine S H W → Ran (Engine S H W) HandlerResult

inductive ActionOutcome where
  /-- A flag for the event of the interaction. -/
  | flag
  | write (outcome : WriteOutcome)
  | message (handler : String) (result : HandlerResult)
  | invalid (error : ActionError)
  | unknown (name : String)

/-- What an interaction did. -/
structure InteractionReport where
  /-- The event is not to go on to other nodes. -/
  stopPropagation : Bool := false
  /-- What the event does by itself is not to be done. -/
  preventDefault : Bool := false
  outcomes : List ActionOutcome := []

/-- The outcomes of the writes among the actions. -/
def InteractionReport.writes (r : InteractionReport) : List WriteOutcome :=
  r.outcomes.filterMap fun
    | .write o => some o
    | _ => none

inductive InteractionError where
  | unknownInstance (id : String)
  | malformedActions
deriving DecidableEq, Repr

/-- The text of a value under a declared type; the types of numbers do not take every text. -/
def ValueType.coerce? (type : ValueType) (text : String) : Option Scalar :=
  match type with
  | integer => (Integer.leading? text).map .integer
  | decimal => (Decimal.read? text).map .decimal
  | boolean => some (.boolean (text == "true"))
  | .text => some (.text text)

namespace Engine

variable {S H W : Type} [RenderTarget S]

/-! ## Messages -/

def messageHost (run : Runner S H W) (g : Engine S H W) (id name : String) (payload reference : Option Json) :
    Ran (Engine S H W) HandlerResult :=
  match g.handlers.find? name with
  | none => ⟨g, .error (.notRegistered (normalizeName name)), []⟩
  | some .consolePrint => ⟨g, .ok (), [.consolePrint id (payload.elim "" Json.compact)]⟩
  | some (.host h) => run h { name := normalizeName name, instanceId := id, payload, reference } g

/-- What is said about a failed message. -/
def messageEvents (handler : String) : HandlerResult → List Event
  | .ok _ => []
  | .error e => [.messageFailed handler e.message]

def sendMessage (run : Runner S H W) (g : Engine S H W) (id handler : String) (payload reference : Option Json) :
    Ran (Engine S H W) ActionOutcome :=
  let r := g.messageHost run id handler payload reference
  ⟨r.state, .message handler r.answer, r.events ++ messageEvents handler r.answer⟩

/-- The name of the handler that a payload is for. -/
def functionOf? : Json → Option String
  | .obj fields => (Json.field? "function" fields).bind Json.asString?
  | _ => none

/-! ## Operands -/

/-- The value of a parameter; without the instance it is the literal. -/
def resolve (g : Engine S H W) (id : String) (event : Option String) (p : ActionParameter) : Json :=
  match g.instance? id with
  | some i => Reference.resolve i.store event p.reference p.value
  | none => p.value

def resolveText (g : Engine S H W) (id : String) (event : Option String) (p : ActionParameter) : String :=
  (g.resolve id event p).text

/-- A minimum and a maximum: one bound is the maximum, two are both, and any other number of bounds counts for none. -/
def boundsOf : List (Option Int) → Option Int × Option Int
  | [max?] => (none, max?)
  | [min?, max?] => (min?, max?)
  | _ => (none, none)

/-- Counts a variable onwards or backwards. -/
def count (g : Engine S H W) (id : String) (c : Count) (direction : Int) (event : Option String) :
    Ran (Engine S H W) WriteOutcome :=
  let (min?, max?) := boundsOf (c.bounds.map fun p => Integer.leading? (g.resolveText id event p))
  match c.amount with
  | none => g.increment id c.target direction min? max?
  | some p =>
    let text := g.resolveText id event p
    match Integer.leading? text with
    | some amount => g.increment id c.target (direction * amount) min? max?
    | none => g.skip (.notANumber text) [.amountNotAnInteger c.target text]

def setValue (g : Engine S H W) (id target : String) (p : ActionParameter) (type : ValueType)
    (event : Option String) : Ran (Engine S H W) WriteOutcome :=
  let text := g.resolveText id event p
  match type.coerce? text with
  | some value => g.write id target value
  | none => g.skip (.notANumber text) [.typeMismatch target text]

/-! ## Actions -/

def act (run : Runner S H W) (g : Engine S H W) (id : String) (event : Option String) (a : Action) :
    Ran (Engine S H W) ActionOutcome :=
  match a with
  | .stopPropagation | .preventDefault => ⟨g, .flag, []⟩
  | .toggle target => (g.toggle id target).map .write
  | .callHandler name => g.sendMessage run id (normalizeName name) none none
  | .sendData _ data =>
    let data := data.decoded
    let payload := g.resolve id event data
    match functionOf? payload with
    | some name => g.sendMessage run id (normalizeName name) (some payload) (some data.reference)
    | none => ⟨g, .message "" (.error .missingFunction), [.messageWithoutFunction]⟩
  | .increment c => (g.count id c 1 event).map .write
  | .decrement c => (g.count id c (-1) event).map .write
  | .setValue target p type => (g.setValue id target p type event).map .write
  | .insert target value place =>
    (g.insert id target (value.map (g.resolveText id event)) (.ofMark? (place.map (g.resolveText id event)))).map .write
  | .clear target => (g.clear id target).map .write
  | .unknown name => ⟨g, .unknown name, [.unknownAction name]⟩

/-- Runs the action of a descriptor, if it describes one. -/
def actOn (run : Runner S H W) (id : String) (event : Option String) (g : Engine S H W) (d : ActionDescriptor) :
    Ran (Engine S H W) ActionOutcome :=
  match Action.ofDescriptor d with
  | .ok a => (g.act run id event a).after [.runningAction a.name]
  | .error e => ⟨g, .invalid e, [.invalidAction e.message]⟩

/-- The descriptor stands for an action of that name without operands. -/
def isFlag (name : String) (d : ActionDescriptor) : Bool := d.action == name

def dispatch (run : Runner S H W) (g : Engine S H W) (id : String) (ds : List ActionDescriptor)
    (event : Option String) : Ran (Engine S H W) InteractionReport :=
  (Ran.each (actOn run id event) g ds).map fun outcomes =>
    { stopPropagation := ds.any (isFlag "stop-propagation")
      preventDefault := ds.any (isFlag "prevent-default")
      outcomes }

/-- Runs the interaction that a text describes, on an instance that has to be there. -/
def interact (run : Runner S H W) (g : Engine S H W) (id actions : String) (event : Option String) :
    Ran (Engine S H W) (Except InteractionError InteractionReport) :=
  if !g.instances.contains id then ⟨g, .error (.unknownInstance id), [.interactionUnknownInstance id]⟩
  else
    match ActionDescriptor.listOfText? actions with
    | none => ⟨g, .error .malformedActions, [.malformedActions]⟩
    | some ds => ((g.dispatch run id ds event).map .ok).after [.handlingInteraction ds.length]

end Engine
end BoundPage
