import BoundPage.Markup.Basic
import BoundPage.Json.Decode
import BoundPage.Json.Printer
/-!
# Markup in JSON

A node is a record all of whose fields may be missing; fields that hold nothing are left out when it is written.
-/
namespace BoundPage
open Json (Document)
open Json.Decode

namespace Markup

/-- A node of at most `depth` levels.  A child is two levels deeper in the document than its parent, so the levels of a
document are enough. -/
def ofDocumentWithin? : Nat → Document → Option Markup
  | 0, _ => none
  | depth + 1, d => do
    let [tag, id, externalId, text, attributes, styles, children] ←
      record ["tag", "id", "extId", "text", "attributes", "styles", "children"] d | none
    return {
      tag := ← defaulted "" string tag
      id := ← defaulted none (nullable string) id
      externalId := ← defaulted none (nullable string) externalId
      text := ← defaulted "" string text
      attributes := ← defaulted ∅ (table string) attributes
      styles := ← defaulted ∅ (table string) styles
      children := ← defaulted [] (list (ofDocumentWithin? depth)) children }

def ofDocument? : Document → Option Markup := ofDocumentWithin? Json.Reader.levels

def listOfDocument? : Document → Option (List Markup) := list ofDocument?

def ofText? (text : String) : Option Markup := Json.Decode.ofText? ofDocument? text

def listOfText? (text : String) : Option (List Markup) := Json.Decode.ofText? listOfDocument? text

/-- A field for the texts of a table, unless it is empty. -/
def textsField (name : String) (t : Table String) : List (String × Json) :=
  if t.isEmpty then [] else [(name, .obj (t.map Json.str).entries)]

/-- A field for an optional text. -/
def optionalField (name : String) (text : Option String) : List (String × Json) :=
  text.toList.map fun t => (name, .str t)

mutual

def toJson : Markup → Json
  | ⟨tag, id, externalId, text, attributes, styles, children⟩ =>
    .obj ([("tag", .str tag)] ++ optionalField "id" id ++ optionalField "extId" externalId ++
      (if text.isEmpty then [] else [("text", .str text)]) ++
      textsField "attributes" attributes ++ textsField "styles" styles ++
      if children.isEmpty then [] else [("children", .arr (toJsonAll children))])

def toJsonAll : List Markup → List Json
  | [] => []
  | m :: ms => toJson m :: toJsonAll ms

end

def listToJson (ms : List Markup) : Json := .arr (toJsonAll ms)

end Markup
end BoundPage
