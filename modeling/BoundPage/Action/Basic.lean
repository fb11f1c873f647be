import BoundPage.Json.Reader
import BoundPage.Table
/-!
# Actions

A page describes what an interaction does as a list of descriptors: a name, maybe a target, and lists of parameters by
name.  A descriptor is checked once (`Action.ofDescriptor`); after that only actions with all their operands are left.
-/
namespace BoundPage

/-- A literal, and the reference that may replace it or parts of it. -/
structure ActionParameter where
  value : Json := .null
  reference : Json := .null

namespace ActionParameter

/-- The value a string holds as JSON, or the string itself when it holds none. -/
def embedded (v : Json) : Json :=
  match v with
  | .str text => (Json.read? text).getD v
  | v => v

/-- The parameter with the string encoding of its two sides undone. -/
def decoded (p : ActionParameter) : ActionParameter := ⟨embedded p.value, embedded p.reference⟩

end ActionParameter

structure ActionDescriptor where
  action : String
  target : Option String := none
  parameters : Table (List ActionParameter) := ∅

namespace ActionDescriptor

/-- All parameters of a name. -/
def listed (d : ActionDescriptor) (name : String) : List ActionParameter := (d.parameters.get? name).getD []

/-- The parameter of a name at an index. -/
def parameter? (d : ActionDescriptor) (name : String) (index : Nat) : Option ActionParameter := (d.listed name)[index]?

def withParameter (d : ActionDescriptor) (name : String) (p : ActionParameter) : ActionDescriptor :=
  { d with parameters := d.parameters.insert name (d.listed name ++ [p]) }

end ActionDescriptor

/-- The type that a written value is brought to. -/
inductive ValueType where
  | integer
  | decimal
  | boolean
  | text
deriving DecidableEq, Repr

namespace ValueType

def name : ValueType → String
  | integer => "integer"
  | decimal => "decimal"
  | boolean => "boolean"
  | text => "text"

/-- The type a parameter declares; anything but the name of another type declares a text. -/
def declaredBy (p : Option ActionParameter) : ValueType :=
  match p.bind fun p => p.value.asString? with
  | some s =>
    if s = integer.name then integer
    else if s = decimal.name then decimal
    else if s = boolean.name then boolean
    else text
  | none => text

end ValueType

/-- What it takes to count: the variable, the amount (1 if there is none) and the bounds, which are a maximum or a
minimum and a maximum. -/
structure Count where
  target : String
  amount : Option ActionParameter
  bounds : List ActionParameter

inductive Action where
  | stopPropagation
  | preventDefault
  | toggle (target : String)
  /-- A message without data, for the handler of that name. -/
  | callHandler (name : String)
  /-- A message whose data names its handler. -/
  | sendData (target : Option String) (data : ActionParameter)
  | increment (count : Count)
  | decrement (count : Count)
  | setValue (target : String) (value : ActionParameter) (type : ValueType)
  | insert (target : String) (value place : Option ActionParameter)
  | clear (target : String)
  /-- No action has this name. -/
  | unknown (name : String)

/-- Why a descriptor is no action. -/
inductive ActionError where
  | missingTarget (action : String)
  | missingParameter (action parameter : String)
deriving DecidableEq, Repr

def ActionError.message : ActionError → String
  | missingTarget action => "Action '" ++ action ++ "' has no target"
  | missingParameter action parameter => "Action '" ++ action ++ "' is missing parameter '" ++ parameter ++ "'"

namespace Action

def name : Action → String
  | stopPropagation => "stop-propagation"
  | preventDefault => "prevent-default"
  | toggle _ => "toggle"
  | callHandler _ | sendData _ _ => "message-host"
  | increment _ => "increment"
  | decrement _ => "decrement"
  | setValue _ _ _ => "set-value"
  | insert _ _ _ => "insert"
  | clear _ => "clear"
  | unknown name => name

def requireTarget (d : ActionDescriptor) : Except ActionError String :=
  match d.target with
  | some target => .ok target
  | none => .error (.missingTarget d.action)

def countOf (d : ActionDescriptor) : Except ActionError Count := do
  return { target := ← requireTarget d, amount := d.parameter? "by" 0, bounds := d.listed "clamp" }

/-- The action a descriptor stands for. -/
def ofDescriptor (d : ActionDescriptor) : Except ActionError Action :=
  match d.action with
  | "stop-propagation" => .ok .stopPropagation
  | "prevent-default" => .ok .preventDefault
  | "toggle" => (requireTarget d).map .toggle
  | "message-host" =>
    match d.parameter? "data" 0 with
    | some data => .ok (.sendData d.target data)
    | none => (requireTarget d).map .callHandler
  | "increment" => (countOf d).map .increment
  | "decrement" => (countOf d).map .decrement
  | "set-value" => do
    let target ← requireTarget d
    match d.parameter? "value" 0 with
    | some value => return .setValue target value (.declaredBy (d.parameter? "value" 1))
    | none => throw (.missingParameter d.action "value")
  | "insert" => (requireTarget d).map fun target => .insert target (d.parameter? "value" 0) (d.parameter? "at" 0)
  | "clear" => (requireTarget d).map .clear
  | other => .ok (.unknown other)

end Action
end BoundPage
