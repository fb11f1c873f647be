import BoundPage.Key
/-!
# Events

What is said about the work on a page while it goes on: every event has a level, a message and some named texts.  No
result depends on the events.
-/
namespace BoundPage

inductive Level where
  | debug
  | info
  | warn
deriving DecidableEq, Repr

def Level.name : Level → String
  | debug => "DEBUG"
  | info => "INFO"
  | warn => "WARN"

structure Event where
  level : Level
  message : String
  /-- The named texts; `none` stands for a reader's account of a malformed text. -/
  fields : List (String × Option String) := []
deriving DecidableEq, Repr

namespace Event

def textField (name value : String) : String × Option String := (name, some value)

def countField (name : String) (n : Nat) : String × Option String := (name, some (toString n))

def keyField (name : String) (k : NodeKey) : String × Option String := (name, some k.text)

/-! ## Instances -/

def initializing (id : String) (stored externals : Nat) : Event :=
  ⟨.info, "Initializing instance",
    [textField "instance" id, countField "variables" stored, countField "external_children" externals]⟩

def reinitialized (id : String) : Event :=
  ⟨.warn, "Instance re-initialized, previous state dropped", [textField "instance" id]⟩

def tornDown (id : String) : Event := ⟨.info, "Instance torn down", [textField "instance" id]⟩

def tearDownUnknown (id : String) : Event := ⟨.warn, "Teardown of unknown instance", [textField "instance" id]⟩

def refreshUnknown (id : String) : Event := ⟨.warn, "Refresh of unknown instance", [textField "instance" id]⟩

def unknownInstance (id name : String) : Event :=
  ⟨.warn, "Unknown instance, ignoring", [textField "instance" id, textField "variable" name]⟩

def unknownVariable (id name : String) : Event :=
  ⟨.warn, "Variable is not in the store, ignoring", [textField "instance" id, textField "variable" name]⟩

/-! ## Writes -/

def writeUnknownInstance (id name : String) : Event :=
  ⟨.warn, "Write to unknown instance, ignoring", [textField "instance" id, textField "variable" name]⟩

def writeUnknownVariable : Event := ⟨.warn, "Variable is not in the store, ignoring", []⟩

def notAnInteger (id name value : String) : Event :=
  ⟨.warn, "Variable is not an integer, ignoring",
    [textField "instance" id, textField "variable" name, textField "value" value]⟩

def notAList (id name value : String) : Event :=
  ⟨.warn, "Variable is not a list, ignoring",
    [textField "instance" id, textField "variable" name, textField "value" value]⟩

def nothingToInsert (id name : String) : Event :=
  ⟨.warn, "Nothing to insert", [textField "instance" id, textField "variable" name]⟩

def propagating (value : String) (dependents : Nat) : Event :=
  ⟨.debug, "Propagating write", [textField "value" value, countField "dependents" dependents]⟩

def ownedByTemplate (node : NodeKey) : Event :=
  ⟨.debug, "List item text is owned by its anchor", [keyField "node" node]⟩

def missingNode (node : NodeKey) : Event :=
  ⟨.warn, "Dependent node not found on the render surface", [keyField "node" node]⟩

def detachedTemplate (node : NodeKey) : Event :=
  ⟨.warn, "Template anchor is detached, list not rendered", [keyField "node" node]⟩

def replacedText (node : NodeKey) : Event := ⟨.debug, "Replaced text", [keyField "node" node]⟩

def appliedVisibility (node : NodeKey) (display : String) : Event :=
  ⟨.debug, "Applied visibility", [keyField "node" node, textField "display" display]⟩

def appliedStyle (node : NodeKey) (matched : Bool) (parameters : Nat) : Event :=
  ⟨.debug, "Applied style",
    [keyField "node" node, textField "matched" (toString matched), countField "parameters" parameters]⟩

/-! ## Lists and external children -/

def notATemplate (anchor : NodeKey) : Event :=
  ⟨.warn, "Materialize called on a node that is not a template anchor", [keyField "anchor" anchor]⟩

def materialized (anchor : NodeKey) (items : Nat) : Event :=
  ⟨.debug, "Materialized list items", [keyField "anchor" anchor, countField "items" items]⟩

def itemsAlreadyRemoved (missing : Nat) : Event :=
  ⟨.debug, "List items already removed", [countField "missing" missing]⟩

def rebuiltList (anchor : NodeKey) (created destroyed : Nat) : Event :=
  ⟨.debug, "Re-materialized list",
    [keyField "anchor" anchor, countField "created" created, countField "destroyed" destroyed]⟩

def missingSlot (slot : NodeKey) (object : String) : Event :=
  ⟨.warn, "External child slot not found", [keyField "slot" slot, textField "object" object]⟩

def placed (object : String) (slot : NodeKey) (nodes : Nat) : Event :=
  ⟨.debug, "Placed external child", [textField "object" object, keyField "slot" slot, countField "nodes" nodes]⟩

def missingCondition (node : NodeKey) : Event :=
  ⟨.debug, "Condition node missing, treating as hidden", [keyField "node" node]⟩

/-! ## Actions and messages -/

def interactionUnknownInstance (id : String) : Event :=
  ⟨.warn, "Interaction for unknown instance, ignoring", [textField "instance" id]⟩

def malformedActions : Event := ⟨.warn, "Malformed action list, ignoring", [("error", none)]⟩

def handlingInteraction (actions : Nat) : Event := ⟨.debug, "Handling interaction", [countField "actions" actions]⟩

def invalidAction (error : String) : Event := ⟨.warn, "Invalid action, ignoring", [textField "error" error]⟩

def runningAction (action : String) : Event := ⟨.debug, "Running action", [textField "action" action]⟩

def unknownAction (action : String) : Event := ⟨.warn, "Unknown action, ignoring", [textField "action" action]⟩

def typeMismatch (name value : String) : Event :=
  ⟨.warn, "Value does not match its declared type", [textField "variable" name, textField "value" value]⟩

def amountNotAnInteger (name amount : String) : Event :=
  ⟨.warn, "Step is not an integer, ignoring", [textField "variable" name, textField "by" amount]⟩

def messageWithoutFunction : Event := ⟨.warn, "Host message payload has no function, ignoring", []⟩

def messageFailed (handler error : String) : Event :=
  ⟨.warn, "Host message failed", [textField "handler" handler, textField "error" error]⟩

def consolePrint (id payload : String) : Event :=
  ⟨.info, "console_print", [textField "instance" id, textField "payload" payload]⟩

end Event
end BoundPage
