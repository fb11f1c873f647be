import BoundPage.Json.Decode
/-!
# Options of a page

What a page can set about its writes: the text in a list template that each item replaces, and the style parameters
that go back to no width.
-/
namespace BoundPage
open Json (Document)
open Json.Decode

structure Options where
  /-- The text in a list template that stands for the item. -/
  loopPlaceholder : String := "$loop$"
  /-- The style parameters that go back to `0px` when they have no default. -/
  zeroWidthParameters : List String :=
    ["border-left-width", "border-right-width", "border-top-width", "border-bottom-width"]
deriving DecidableEq, Repr

namespace Options

def resetsToZero (o : Options) (parameter : String) : Bool := o.zeroWidthParameters.contains parameter

def ofDocument? (d : Document) : Option Options := do
  let [placeholder, parameters] ← record ["loopPlaceholder", "zeroWidthParameters"] d | none
  let standard : Options := {}
  return {
    loopPlaceholder := ← defaulted standard.loopPlaceholder string placeholder
    zeroWidthParameters := ← defaulted standard.zeroWidthParameters (list string) parameters }

def ofText? (text : String) : Option Options := Json.Decode.ofText? ofDocument? text

def toJson (o : Options) : Json :=
  .obj [("loopPlaceholder", .str o.loopPlaceholder),
    ("zeroWidthParameters", .arr (o.zeroWidthParameters.map .str))]

end Options
end BoundPage
