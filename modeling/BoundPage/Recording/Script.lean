import BoundPage.Engine.Dispatch
import BoundPage.Recording.Page
import BoundPage.Text.Quoted
/-!
# Scripts for a recorded page

The calls of a host, one after the other.  A step is a record with its kind among the fields; written as a list, the
kind comes first.
-/
namespace BoundPage.Recording
open Json (Document)
open Json.Decode

inductive Step where
  | interaction (instanceId : Option String) (actions : List ActionDescriptor) (event : Option String)
  | setString (instanceId : Option String) (name value : String)
  | setBoolean (instanceId : Option String) (name : String) (value : Bool)
  | increment (instanceId : Option String) (name : String) (amount : Int) (min? max? : Option Int)
  | insert (instanceId : Option String) (name : String) (value place : Option String)
  | setBooleanForAll (name : String) (value : Bool)
  | setStringForAll (name value : String)
  | teardown (instanceId : String)

namespace Step

/-! ## Reading -/

/-- The kind of a step, and the document of its other fields. -/
def splitKind? : Document → Option (String × Document)
  | .arr (.str kind :: rest) => some (kind, .arr rest)
  | .obj fields =>
    match fields.filter fun f => f.1 == some "kind" with
    | [(_, .str kind)] => some (kind, .obj (fields.filter fun f => f.1 != some "kind"))
    | _ => none
  | _ => none

def optionalText : Option Document → Option (Option String) := defaulted none (nullable string)

def optionalInteger : Option Document → Option (Option Int) := defaulted none (nullable integer)

/-- The step of a kind. -/
def ofKind? (kind : String) (d : Document) : Option Step :=
  match kind with
  | "interaction" => do
    let [id, actions, event] ← record ["instance", "actions", "context"] d | none
    return .interaction (← optionalText id) (← required (list ActionDescriptor.ofDocument?) actions)
      (← optionalText event)
  | "set-string" => do
    let [id, name, value] ← record ["instance", "variable", "value"] d | none
    return .setString (← optionalText id) (← required string name) (← required string value)
  | "set-boolean" => do
    let [id, name, value] ← record ["instance", "variable", "value"] d | none
    return .setBoolean (← optionalText id) (← required string name) (← required boolean value)
  | "increment" => do
    let [id, name, amount, min?, max?] ← record ["instance", "variable", "by", "clampMin", "clampMax"] d | none
    return .increment (← optionalText id) (← required string name) (← defaulted 1 integer amount)
      (← optionalInteger min?) (← optionalInteger max?)
  | "insert" => do
    let [id, name, value, place] ← record ["instance", "variable", "value", "at"] d | none
    return .insert (← optionalText id) (← required string name) (← optionalText value) (← optionalText place)
  | "set-boolean-for-all" => do
    let [name, value] ← record ["variable", "value"] d | none
    return .setBooleanForAll (← required string name) (← required boolean value)
  | "set-string-for-all" => do
    let [name, value] ← record ["variable", "value"] d | none
    return .setStringForAll (← required string name) (← required string value)
  | "teardown" => do
    let [id] ← record ["instance"] d | none
    return .teardown (← required string id)
  | _ => none

/-- The kind may stand behind the other fields, so all of them have to stand for something. -/
def ofDocument? (d : Document) : Option Step := do
  if !d.sound then none
  let (kind, d) ← splitKind? d
  ofKind? kind d

def listOfText? (text : String) : Option (List Step) := Json.Decode.ofText? (list ofDocument?) text

/-! ## Running -/

def label : Step → String
  | interaction _ actions _ => "interaction [" ++ ", ".intercalate (actions.map (·.action)) ++ "]"
  | setString _ name value => "set-string " ++ name ++ " = " ++ Text.quoted value
  | setBoolean _ name value => "set-boolean " ++ name ++ " = " ++ toString value
  | increment _ name amount _ _ => "increment " ++ name ++ " by " ++ toString amount
  | insert _ name value _ => "insert " ++ name ++ " <- " ++ value.getD "<none>"
  | setBooleanForAll name value => "set-boolean-for-all " ++ name ++ " = " ++ toString value
  | setStringForAll name value => "set-string-for-all " ++ name ++ " = " ++ Text.quoted value
  | teardown id => "teardown " ++ id

inductive Result where
  | interaction (report : InteractionReport)
  | writes (outcomes : List WriteOutcome)
  | tornDown (found : Bool)
  /-- There is no such instance to interact with. -/
  | unknownInstance (id : String)

/-- A page without a host has no handlers of one. -/
def noHost : Runner Surface Empty Unit := fun h => nomatch h

/-- Carries out a step; one without an instance is for the page's default instance. -/
def run (fallback : String) (g : Page.PageEngine) (step : Step) : Ran Page.PageEngine Result :=
  match step with
  | .interaction id actions event =>
    let id := id.getD fallback
    if g.instances.contains id then (g.dispatch noHost id actions event).map .interaction
    else ⟨g, .unknownInstance id, []⟩
  | .setString id name value => (g.setString (id.getD fallback) name value).map fun o => .writes [o]
  | .setBoolean id name value => (g.setBoolean (id.getD fallback) name value).map fun o => .writes [o]
  | .increment id name amount min? max? =>
    (g.increment (id.getD fallback) name amount min? max?).map fun o => .writes [o]
  | .insert id name value place =>
    (g.insert (id.getD fallback) name value (.ofMark? place)).map fun o => .writes [o]
  | .setBooleanForAll name value => (g.setForAll name (.boolean value)).map .writes
  | .setStringForAll name value => (g.setForAll name (.text value)).map .writes
  | .teardown id => (g.teardown id).map .tornDown

/-- The message of a failed step. -/
def unknownInstanceMessage (id : String) : String := "Unknown instance '" ++ id ++ "'"

end Step
end BoundPage.Recording
