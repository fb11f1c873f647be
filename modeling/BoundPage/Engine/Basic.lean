import BoundPage.Handler
import BoundPage.Write.Variable
import BoundPage.Integer
/-!
# Engines

An engine holds the rendered page, the running instances and the handlers, and carries out what a host asks for.  Every
change of a variable goes through `Engine.write`.  What cannot be done is skipped: the outcome says why, and the state
stays as it is.

The type `S` is what the page is rendered to, `H` the host's handlers and `W` whatever the host itself keeps.
-/
namespace BoundPage

/-- The state after an operation, its answer, and what was said on the way. -/
structure Ran (σ α : Type) where
  state : σ
  answer : α
  events : List Event := []

namespace Ran

variable {σ α β : Type}

def map (f : α → β) (r : Ran σ α) : Ran σ β := ⟨r.state, f r.answer, r.events⟩

/-- Goes on from the state and the answer. -/
def andThen (r : Ran σ α) (f : σ → α → Ran σ β) : Ran σ β :=
  let next := f r.state r.answer
  { next with events := r.events ++ next.events }

/-- The same, with something said before. -/
def after (events : List Event) (r : Ran σ α) : Ran σ α := { r with events := events ++ r.events }

/-- Does one thing for every item, one after the other, and answers the answers in order. -/
def each {ι : Type} (f : σ → ι → Ran σ α) (state : σ) : List ι → Ran σ (List α)
  | [] => ⟨state, [], []⟩
  | i :: is => (f state i).andThen fun state a => (each f state is).map (a :: ·)

end Ran

structure Engine (S H W : Type) where
  surface : S
  effector : StyleEffector S
  options : Options := {}
  /-- The running instances, in the order of their creation. -/
  instances : Table Instance := ∅
  handlers : Handlers H := .builtin
  host : W

namespace Engine

variable {S H W : Type}

/-- An engine without instances, whose style parameters are inline styles. -/
def new [RenderTarget S] (surface : S) (host : W) : Engine S H W := { surface, effector := inlineStyles, host }

def instance? (g : Engine S H W) (id : String) : Option Instance := g.instances.get? id

def instanceIds (g : Engine S H W) : List String := g.instances.names

/-- The text of a variable, or why there is none. -/
def current (g : Engine S H W) (id name : String) : Except SkipReason String :=
  match g.instance? id with
  | none => .error (.unknownInstance id)
  | some i =>
    match i.store.value? name with
    | none => .error (.unknownVariable name)
    | some value => .ok value

/-! ## Instances -/

/-- Starts an instance; one that has the id already is replaced. -/
def start (g : Engine S H W) (id : String) (i : Instance) : Ran (Engine S H W) Unit where
  state := { g with instances := g.instances.insert id i }
  answer := ()
  events := .initializing id i.store.size i.externals.registrations.length ::
    if g.instances.contains id then [.reinitialized id] else []

/-- Starts an instance from the texts of its variables and its external children; answers whether both are well
formed. -/
def startText (g : Engine S H W) (id store : String) (externals : Option String) : Ran (Engine S H W) Bool :=
  let read : Option Instance := do
    let store ← Variables.ofText? store
    let externals ← externals.elim (some ∅) ExternalChildren.ofText?
    return { store, externals }
  match read with
  | some i => (g.start id i).map fun _ => true
  | none => ⟨g, false, []⟩

/-- Ends an instance; answers whether there was one. -/
def teardown (g : Engine S H W) (id : String) : Ran (Engine S H W) Bool :=
  if g.instances.contains id then
    ⟨{ g with instances := g.instances.erase id }, true, [.tornDown id]⟩
  else ⟨g, false, [.tearDownUnknown id]⟩

/-! ## Writes -/

/-- What is said when a variable has no text. -/
def lookupEvents (id name : String) : SkipReason → List Event
  | .unknownInstance _ => [.unknownInstance id name]
  | .unknownVariable _ => [.unknownVariable id name]
  | _ => []

def get (g : Engine S H W) (id name : String) : Ran (Engine S H W) (Option String) :=
  match g.current id name with
  | .ok value => ⟨g, some value, []⟩
  | .error reason => ⟨g, none, lookupEvents id name reason⟩

def skip (g : Engine S H W) (reason : SkipReason) (events : List Event) : Ran (Engine S H W) WriteOutcome :=
  ⟨g, .skipped reason, events⟩

def withCurrent (g : Engine S H W) (id name : String) (f : String → Ran (Engine S H W) WriteOutcome) :
    Ran (Engine S H W) WriteOutcome :=
  match g.current id name with
  | .ok value => f value
  | .error reason => g.skip reason (lookupEvents id name reason)

variable [RenderTarget S]

def write (g : Engine S H W) (id name : String) (value : Scalar) : Ran (Engine S H W) WriteOutcome :=
  match g.instance? id with
  | none => g.skip (.unknownInstance id) [.writeUnknownInstance id name]
  | some i =>
    let w := i.write g.effector g.options id g.surface name value
    { state := { g with surface := w.surface, instances := g.instances.insert id w.inst }
      answer := w.outcome
      events := w.events }

def setBoolean (g : Engine S H W) (id name : String) (value : Bool) : Ran (Engine S H W) WriteOutcome :=
  g.write id name (.boolean value)

def setString (g : Engine S H W) (id name value : String) : Ran (Engine S H W) WriteOutcome :=
  g.write id name (.text value)

/-- Turns `true` into `false`, and anything else into `true`. -/
def toggle (g : Engine S H W) (id name : String) : Ran (Engine S H W) WriteOutcome :=
  g.withCurrent id name fun value => g.setBoolean id name (value != "true")

/-- Counts a variable that holds an integer onwards. -/
def increment (g : Engine S H W) (id name : String) (amount : Int) (min? max? : Option Int) :
    Ran (Engine S H W) WriteOutcome :=
  g.withCurrent id name fun value =>
    match Integer.leading? value with
    | some n => g.write id name (.integer (Integer.step n amount min? max?))
    | none => g.skip (.notANumber value) [.notAnInteger id name value]

/-- Where a new item goes. -/
inductive Place where
  | start
  | last
deriving DecidableEq, Repr

/-- `start` is the start; any other mark is the end. -/
def Place.ofMark (mark : String) : Place := if mark = "start" then .start else .last

/-- The place of an optional mark. -/
def Place.ofMark? (mark : Option String) : Place := mark.elim .last .ofMark

def Place.add (place : Place) (item : Json) (items : List Json) : List Json :=
  match place with
  | .start => item :: items
  | .last => items ++ [item]

/-- Inserts a text into the JSON list that a variable holds. -/
def insert (g : Engine S H W) (id name : String) (value : Option String) (place : Place) :
    Ran (Engine S H W) WriteOutcome :=
  g.withCurrent id name fun current =>
    match Json.read? current with
    | some (.arr items) =>
      match value.filter fun v => !Text.isBlankText v with
      | some v => g.setString id name (Json.arr (place.add (.str v) items)).compact
      | none => g.skip .nothingToInsert [.nothingToInsert id name]
    | _ => g.skip (.notAList name) [.notAList id name current]

/-- Resets a variable: to the empty list if it holds JSON, and to no text otherwise. -/
def clear (g : Engine S H W) (id name : String) : Ran (Engine S H W) WriteOutcome :=
  g.withCurrent id name fun value => g.setString id name (if (Json.read? value).isSome then "[]" else "")

/-! ## Several writes -/

/-- Writes booleans to variables of an instance, in order. -/
def setManyBooleans (g : Engine S H W) (id : String) (values : List (String × Bool)) :
    Ran (Engine S H W) (List WriteOutcome) :=
  Ran.each (fun g v => g.setBoolean id v.1 v.2) g values

def setForAll (g : Engine S H W) (name : String) (value : Scalar) : Ran (Engine S H W) (List WriteOutcome) :=
  Ran.each (fun g id => g.write id name value) g g.instanceIds

/-- Places the external children of an instance that can be placed now; answers the objects placed. -/
def refresh (g : Engine S H W) (id : String) : Ran (Engine S H W) (List String) :=
  match g.instance? id with
  | none => ⟨g, [], [.refreshUnknown id]⟩
  | some i =>
    let placing := i.externals.placePending g.surface id
    { state :=
        { g with
          surface := placing.surface
          instances := g.instances.insert id { i with externals := placing.children } }
      answer := placing.placed
      events := placing.events }

end Engine
end BoundPage
