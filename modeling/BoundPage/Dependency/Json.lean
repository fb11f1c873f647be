import BoundPage.Dependency.Basic
import BoundPage.Json.Decode
/-!
# Dependencies in JSON

A dependency is a record of its kind, a condition and its style parameters.  A list of them may also be written as a
string that holds the list.
-/
namespace BoundPage
open Json (Document)
open Json.Decode

namespace StyleValue

/-- A style value is a record of any value, `null` for none, and a flag. -/
def ofDocument? (d : Document) : Option StyleValue := do
  let [text, important] ← record ["value", "important"] d | none
  let text ← defaulted Json.null value text
  let important ← defaulted false boolean important
  return { text := if text.isNull then none else some text.text, important }

def toJson (v : StyleValue) : Json :=
  .obj [("value", v.text.elim .null .str), ("important", .bool v.important)]

end StyleValue

namespace StyleParameter

def ofDocument? (d : Document) : Option StyleParameter := do
  let [value, fallback] ← record ["value", "default"] d | none
  return {
    value := ← required StyleValue.ofDocument? value
    fallback := ← defaulted none (nullable StyleValue.ofDocument?) fallback }

def toJson (p : StyleParameter) : Json :=
  .obj [("value", p.value.toJson), ("default", p.fallback.elim .null StyleValue.toJson)]

end StyleParameter

namespace Dependency

/-- The kinds of dependency, by their names. -/
inductive Kind where
  | value
  | visible
  | style

def kindNamed? (name : String) : Option Kind :=
  if name = "Value" then some .value
  else if name = "Visible" then some .visible
  else if name = "Style" then some .style
  else none

/-- A condition or parameters that are `null` count as missing.  A visible dependency needs a condition; the fields that
a kind does not use are read all the same. -/
def ofDocument? (d : Document) : Option Dependency := do
  let [kind, condition, parameters] ← record ["dependency_type", "condition", "parameters"] d | none
  let kind ← required (choice kindNamed?) kind
  let condition ← defaulted none (nullable Json.Decode.value) condition
  let parameters ← defaulted none (nullable (table StyleParameter.ofDocument?)) parameters
  match kind with
  | .value => some .value
  | .visible => condition.map fun c => .visible (Condition.ofJson c)
  | .style => some (.style (condition.map Json.text) (parameters.getD ∅))

def toJson : Dependency → Json
  | .value => .obj [("dependency_type", .str "Value")]
  | .visible condition => .obj [("dependency_type", .str "Visible"), ("condition", .str condition.text)]
  | .style condition parameters =>
    .obj ([("dependency_type", .str "Style")] ++ (condition.map fun c => ("condition", Json.str c)).toList ++
      [("parameters", .obj (parameters.map StyleParameter.toJson).entries)])

/-- A list of dependencies written as a list. -/
def listOfDocument? : Document → Option (List Dependency) := list ofDocument?

/-- A list of dependencies as it is written: as a string that holds one, or as a list. -/
inductive Written where
  | text (s : String)
  | list (ds : List Dependency)

/-- The choice between the two reads all of the document, so a part that stands for nothing is refused even in a field
that is not used. -/
def Written.ofDocument? : Document → Option Written
  | .str s => some (.text s)
  | d => if d.sound then (listOfDocument? d).map .list else none

def Written.read? : Written → Option (List Dependency)
  | .text s => ofText? listOfDocument? s
  | .list ds => some ds

def listToJson (ds : List Dependency) : Json := .arr (ds.map toJson)

end Dependency
end BoundPage
