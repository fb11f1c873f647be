import BoundPage.Engine.Dispatch
import BoundPage.Surface.Target
/-!
# Requests of a host

Everything a host can ask an engine for, as a value, and the answers it gets.  Texts in JSON are read when the request
is carried out.
-/
namespace BoundPage.Session

inductive Request where
  /-- Starts an instance from the texts of its variables and its external children. -/
  | startText (store : String) (externals : Option String)
  /-- Starts an instance that is given, and asks which of some variables it has. -/
  | start (inst : Instance) (queries : List String)
  | teardown
  | interact (actions : String) (event : Option String)
  /-- Runs actions without asking whether there is an instance. -/
  | dispatchText (actions : String) (event : Option String)
  | dispatch (actions : List ActionDescriptor) (event : Option String)
  | write (name : String) (value : Scalar)
  | toggle (name : String)
  | increment (name : String) (amount : Int) (min? max? : Option Int)
  | insert (name : String) (value place : Option String)
  | clear (name : String)
  | setMany (values : List (String × Bool))
  | setForAll (name : String) (value : Scalar)
  | get (name : String)
  | refresh
  | isPlaced (object : String)
  | message (name : String) (payload reference : Option String)
  | handlers (queries : List String)
  | table (name : String)
  /-- Asks for the node of a data-id. -/
  | node (id : String)
  /-- A field of the request is missing or wrong. -/
  | malformed (field : String)

/-- A request to an instance; without one it goes to the instance at hand. -/
structure Call where
  instanceId : Option String
  request : Request

inductive Answer where
  | done
  | malformedPage
  | malformedJson
  | malformedActions
  | stored (names : List String) (contains : List Bool)
  | flag (b : Bool)
  | interaction (report : InteractionReport)
  | interactionWithWrites (report : InteractionReport)
  | unknownInstance (id : String)
  | write (outcome : WriteOutcome)
  | writes (outcomes : List WriteOutcome)
  | text (t : Option String)
  | objects (placed : List String)
  | isPlaced (b : Option Bool)
  | handler (result : HandlerResult)
  | handlers (names : List String) (contains : List Bool)
  | table (t : Option DependencyTable)
  | node (text : Option String) (children : List String) (parent : Option String)
  | malformed (field : String)

variable {H W : Type}

/-- What an optional text holds as JSON: nothing if there is no text, and no answer if it is malformed. -/
def readOptional? (text : Option String) : Option (Option Json) :=
  match text with
  | none => some none
  | some t => (Json.read? t).map some

/-- Carries out a request to an instance. -/
def carryOut (run : Runner Surface H W) (g : Engine Surface H W) (id : String) (r : Request) :
    Ran (Engine Surface H W) Answer :=
  match r with
  | .startText store externals =>
    (g.startText id store externals).map fun ok => if ok then .done else .malformedPage
  | .start i queries =>
    (g.start id i).map fun _ => .stored i.store.names (queries.map i.store.contains)
  | .teardown => (g.teardown id).map .flag
  | .interact actions event =>
    (g.interact run id actions event).map fun
      | .ok report => .interaction report
      | .error (.unknownInstance id) => .unknownInstance id
      | .error .malformedActions => .malformedActions
  | .dispatchText actions event =>
    match ActionDescriptor.listOfText? actions with
    | some ds => (g.dispatch run id ds event).map .interaction
    | none => ⟨g, .malformedActions, []⟩
  | .dispatch ds event => (g.dispatch run id ds event).map .interactionWithWrites
  | .write name value => (g.write id name value).map .write
  | .toggle name => (g.toggle id name).map .write
  | .increment name amount min? max? => (g.increment id name amount min? max?).map .write
  | .insert name value place => (g.insert id name value (.ofMark? place)).map .write
  | .clear name => (g.clear id name).map .write
  | .setMany values => (g.setManyBooleans id values).map .writes
  | .setForAll name value => (g.setForAll name value).map .writes
  | .get name => (g.get id name).map .text
  | .refresh => (g.refresh id).map .objects
  | .isPlaced object => ⟨g, .isPlaced ((g.instance? id).map fun i => i.externals.isPlaced object), []⟩
  | .message name payload reference =>
    match readOptional? payload, readOptional? reference with
    | some payload, some reference => (g.messageHost run id name payload reference).map .handler
    | _, _ => ⟨g, .malformedJson, []⟩
  | .handlers queries => ⟨g, .handlers g.handlers.names (queries.map g.handlers.contains), []⟩
  | .table name =>
    ⟨g, .table ((g.instance? id).bind fun i => (i.store.get? name).map (·.dependents)), []⟩
  | .node data =>
    ⟨g, .node (g.surface.textAt? data) (g.surface.childIds data) (g.surface.parentId? data), []⟩
  | .malformed field => ⟨g, .malformed field, []⟩

end BoundPage.Session
