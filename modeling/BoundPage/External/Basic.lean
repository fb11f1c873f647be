import BoundPage.Json.Decode
/-!
# External children

Content that is rendered apart from the place it belongs to.  An object may have several registrations, each with the
slot it may go to and the nodes that have to be visible for it.
-/
namespace BoundPage
open Json (Document)
open Json.Decode

/-- One place an object may go to. -/
structure Registration where
  object : String
  /-- The element to move it under. -/
  slot : String
  /-- The elements that all have to be visible. -/
  condition : List String := []
deriving DecidableEq, Repr

/-- The external children of an instance, and which of them have been placed. -/
structure ExternalChildren where
  registrations : List Registration := []
  placed : List String := []
deriving DecidableEq, Repr

namespace ExternalChildren

instance : EmptyCollection ExternalChildren := ⟨{}⟩

instance : Inhabited ExternalChildren := ⟨∅⟩

def isPlaced (c : ExternalChildren) (object : String) : Bool := c.placed.contains object

/-- The registrations of objects that have not been placed. -/
def pending (c : ExternalChildren) : List Registration := c.registrations.filter fun r => !c.isPlaced r.object

/-! ## In JSON -/

/-- A place for an object: the condition and the slot. -/
def candidate? (d : Document) : Option (List String × String) := do
  let [condition, slot] ← record ["condition", "set_at"] d | none
  let condition ← defaulted [] (list string) condition
  return (condition, ← required string slot)

def ofTable (t : Table (List (List String × String))) : ExternalChildren where
  registrations := t.entries.flatMap fun (object, candidates) =>
    candidates.map fun (condition, slot) => { object, slot, condition }

def ofDocument? (d : Document) : Option ExternalChildren := (table (list candidate?) d).map ofTable

def ofText? (text : String) : Option ExternalChildren := Json.Decode.ofText? ofDocument? text

end ExternalChildren
end BoundPage
