import BoundPage.Json.Printer
import BoundPage.Table
import BoundPage.Text.Blank
/-!
# Handlers of messages

A page sends messages to handlers by name.  Blanks around a name do not count, and `-` counts as `_`.  A handler that
nobody registered is served by the fallback, if there is one.
-/
namespace BoundPage

/-- What a handler is called with. -/
structure HandlerCall where
  /-- The normalized name. -/
  name : String
  instanceId : String
  payload : Option Json := none
  /-- The reference that the payload was resolved against. -/
  reference : Option Json := none

inductive HandlerError where
  | notRegistered (name : String)
  | missingFunction
  | failed (name message : String)
deriving DecidableEq, Repr

def HandlerError.message : HandlerError → String
  | notRegistered name => "No handler registered as '" ++ name ++ "'"
  | missingFunction => "Message payload has no 'function' field"
  | failed name message => "Handler '" ++ name ++ "' failed: " ++ message

/-- The answer of a handler. -/
abbrev HandlerResult := Except HandlerError Unit

/-- The name that handlers are registered by. -/
def normalizeName (name : String) : String :=
  String.ofList ((Text.trimChars name.toList).map fun c => if c = '-' then '_' else c)

/-- The handler that every page has, or one of the host's. -/
inductive Handler (H : Type) where
  | consolePrint
  | host (h : H)

structure Handlers (H : Type) where
  named : Table (Handler H) := ∅
  fallback : Option (Handler H) := none

namespace Handlers

variable {H : Type}

instance : EmptyCollection (Handlers H) := ⟨{}⟩

def register (hs : Handlers H) (name : String) (h : Handler H) : Handlers H :=
  { hs with named := hs.named.insert (normalizeName name) h }

/-- The handlers that a page starts with. -/
def builtin : Handlers H := (∅ : Handlers H).register "console_print" .consolePrint

def find? (hs : Handlers H) (name : String) : Option (Handler H) := (hs.named.get? (normalizeName name)).or hs.fallback

def contains (hs : Handlers H) (name : String) : Bool := hs.named.contains (normalizeName name)

def names (hs : Handlers H) : List String := hs.named.names

end Handlers
end BoundPage
