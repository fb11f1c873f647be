import BoundPage.External.Basic
import BoundPage.Target
import BoundPage.Event
/-!
# Placing external children

An object is placed by the first of its registrations that is satisfied: its nodes are moved under the slot.  A placed
object is never looked at again.
-/
namespace BoundPage.ExternalChildren
open RenderTarget

variable {S : Type} [RenderTarget S]

def isShown (s : S) (instanceId element : String) : Bool := (locate s ⟨element, instanceId⟩).any (isVisible s)

def conditionHolds (s : S) (instanceId : String) (condition : List String) : Bool :=
  condition.all (isShown s instanceId)

/-- What is said about a condition: the first element that is not visible ends it, and counts only if it is missing. -/
def conditionEvents (s : S) (instanceId : String) (condition : List String) : List Event :=
  match condition.find? fun element => !isShown s instanceId element with
  | none => []
  | some element =>
    let key : NodeKey := ⟨element, instanceId⟩
    if (locate s key).isNone then [.missingCondition key] else []

/-- Moves a node under a slot unless it is there. -/
def moveUnder (slot : Nat) (s : S) (n : Nat) : S := if parent s n = some slot then s else appendChild s slot n

/-- How far a placement has got. -/
structure Progress (S : Type) where
  surface : S
  children : ExternalChildren
  /-- The objects placed so far. -/
  placed : List String := []
  events : List Event := []

/-- Looks at one registration. -/
def Progress.next (instanceId : String) (p : Progress S) (r : Registration) : Progress S :=
  if p.children.isPlaced r.object then p
  else
    let p := { p with events := p.events ++ conditionEvents p.surface instanceId r.condition }
    if !conditionHolds p.surface instanceId r.condition then p
    else
      let slotKey : NodeKey := ⟨r.slot, instanceId⟩
      match locate p.surface slotKey with
      | none => { p with events := p.events ++ [.missingSlot slotKey r.object] }
      | some slot =>
        let nodes := locateExternal p.surface ⟨r.object, instanceId⟩
        { surface := nodes.foldl (moveUnder slot) p.surface
          children := { p.children with placed := p.children.placed ++ [r.object] }
          placed := p.placed ++ [r.object]
          events := p.events ++ [.placed r.object slotKey nodes.length] }

/-- Places every object that has a satisfied registration, in the order of the registrations. -/
def placePending (c : ExternalChildren) (s : S) (instanceId : String) : Progress S :=
  c.registrations.foldl (Progress.next instanceId) { surface := s, children := c }

end BoundPage.ExternalChildren
