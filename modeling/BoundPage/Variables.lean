import BoundPage.Dependency.Json
/-!
# Variables

The named texts of one instance, with the nodes that depend on each of them.
-/
namespace BoundPage
open Json (Document)
open Json.Decode

structure Variable where
  /-- The text of the value written last. -/
  value : String := ""
  dependents : DependencyTable := ∅

instance : Inhabited Variable := ⟨{}⟩

namespace Variable

/-- The lists that are written as strings are read once the table is complete, so one that was replaced is not. -/
def ofDocument? (d : Document) : Option Variable := do
  let [value, dependents] ← record ["value", "dependencies"] d | none
  let value ← defaulted Json.null Json.Decode.value value
  let written ← defaulted ∅ (table Dependency.Written.ofDocument?) dependents
  return { value := value.text, dependents := ← written.mapM? Dependency.Written.read? }

end Variable

/-- The variables of an instance, in the order of their declaration. -/
abbrev Variables := Table Variable

namespace Variables

def ofDocument? : Document → Option Variables := table Variable.ofDocument?

def ofText? (text : String) : Option Variables := Json.Decode.ofText? ofDocument? text

def value? (vs : Variables) (name : String) : Option String := (vs.get? name).map (·.value)

end Variables
end BoundPage
