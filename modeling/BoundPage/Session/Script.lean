import BoundPage.Session.Request
/-!
# Sessions with scripted handlers

A scripted handler makes calls of its own, to the instance it was called for unless they name another one, and then
fails or not.  Handlers may call handlers; with `depthLimit` of them active, a further one fails at once.  All that the
handlers did is kept in the order in which it happened.
-/
namespace BoundPage.Session

structure ScriptedHandler where
  calls : List Call := []
  /-- The message to fail with, after the calls. -/
  failure : Option String := none

/-- What scripted handlers leave behind. -/
inductive HandlerRecord where
  | called (call : HandlerCall)
  /-- One of the calls of a handler was answered. -/
  | answered (handler : String) (answer : Answer)

abbrev SessionEngine := Engine Surface ScriptedHandler (List HandlerRecord)

def record (g : SessionEngine) (r : HandlerRecord) : SessionEngine := { g with host := g.host ++ [r] }

/-- Makes a call. -/
def perform (run : Runner Surface ScriptedHandler (List HandlerRecord)) (g : SessionEngine) (current : String)
    (c : Call) : Ran SessionEngine Answer :=
  carryOut run g (c.instanceId.getD current) c.request

/-- Runs a handler, with at most `room` handlers active at the same time. -/
def runHandler : Nat → Runner Surface ScriptedHandler (List HandlerRecord)
  | 0, _, call, g => ⟨record g (.called call), .error (.failed call.name "depth"), []⟩
  | room + 1, h, call, g =>
    let made := Ran.each (fun g c =>
        let r := perform (runHandler room) g call.instanceId c
        { r with state := record r.state (.answered call.name r.answer) })
      (record g (.called call)) h.calls
    made.map fun _ =>
      match h.failure with
      | some message => .error (.failed call.name message)
      | none => .ok ()

/-- How many handlers may be active at the same time. -/
def depthLimit : Nat := 8

/-- Makes a call from outside; what the handlers did since is kept. -/
def step (g : SessionEngine) (current : String) (c : Call) : Ran SessionEngine Answer :=
  perform (runHandler depthLimit) { g with host := [] } current c

end BoundPage.Session
