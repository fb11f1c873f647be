import BoundPage.Action.Basic
import BoundPage.Json.Decode
import BoundPage.Json.Printer
/-!
# Action descriptors in JSON
-/
namespace BoundPage
open Json (Document)
open Json.Decode

namespace ActionParameter

def ofDocument? (d : Document) : Option ActionParameter := do
  let [literal, reference] ← record ["value", "reference"] d | none
  return {
    value := ← defaulted .null Json.Decode.value literal
    reference := ← defaulted .null Json.Decode.value reference }

def toJson (p : ActionParameter) : Json := .obj [("value", p.value), ("reference", p.reference)]

end ActionParameter

namespace ActionDescriptor

def ofDocument? (d : Document) : Option ActionDescriptor := do
  let [action, target, parameters] ← record ["action", "target", "parameters"] d | none
  return {
    action := ← required string action
    target := ← defaulted none (nullable string) target
    parameters := ← defaulted ∅ (table (list ActionParameter.ofDocument?)) parameters }

/-- A missing target and an empty table of parameters are left out. -/
def toJson (d : ActionDescriptor) : Json :=
  .obj ([("action", .str d.action)] ++ (d.target.map fun target => ("target", Json.str target)).toList ++
    if d.parameters.isEmpty then []
    else [("parameters", .obj (d.parameters.map fun ps => .arr (ps.map ActionParameter.toJson)).entries)])

/-- The descriptors of one interaction, in order. -/
def listOfText? (text : String) : Option (List ActionDescriptor) := ofText? (list ofDocument?) text

end ActionDescriptor
end BoundPage
