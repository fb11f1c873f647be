import BoundPage.Target
import BoundPage.Style.Shadow
import BoundPage.Style.Placement
/-!
# Style parameters

A style parameter is mostly a style property of the same name.  Some stand for several properties, and the parts of a
box shadow for a part of one.  What a parameter does to a node is a list of edits, which depend on the node's present
styles only (`StyleEdit.forParameter`).
-/
namespace BoundPage
open RenderTarget

/-- One property set or cleared. -/
structure StyleEdit where
  property : String
  value : Option String
  important : Bool := false
deriving DecidableEq, Repr

namespace StyleEdit

def set (property value : String) : StyleEdit := { property, value := some value }

def clear (property : String) : StyleEdit := { property, value := none }

/-- Clears what either placement may have set, and places the node. -/
def align (look : String → Option String) (value : Option String) : List StyleEdit :=
  let place := value.getD ""
  let (properties, styles) :=
    if look "position" = some "fixed" ∨ look "position" = some "absolute" then
      (Placement.positionedProperties, Placement.positioned place)
    else (Placement.flowProperties, Placement.flow place)
  properties.map clear ++ styles.map fun s => set s.1 s.2

def lineClamp (value : Option String) : List StyleEdit :=
  match value with
  | some lines =>
    [set "display" "-webkit-box", set "overflow" "hidden", set "-webkit-line-clamp" lines,
      set "-webkit-box-orient" "vertical"]
  | none => ["display", "overflow", "-webkit-line-clamp", "-webkit-box-orient"].map clear

/-- A picture fills its node unless it is repeated. -/
def backgroundImage (look : String → Option String) (value : Option String) : List StyleEdit :=
  match value with
  | some url =>
    set "background-image" ("url(" ++ url ++ ")") ::
      if (look "background-repeat").any fun v => !v.isEmpty then []
      else [set "background-size" "cover", set "background-position" "center"]
  | none => ["background-image", "background-size", "background-position"].map clear

def backgroundRepeat (value : Option String) : List StyleEdit :=
  match value with
  | some _ => [set "background-repeat" "repeat", clear "background-size", clear "background-position"]
  | none => [clear "background-repeat", set "background-size" "cover", set "background-position" "center"]

/-- The edits that a parameter stands for on a node with the given styles. -/
def forParameter (look : String → Option String) (parameter : String) (value : Option String) (important : Bool) :
    List StyleEdit :=
  match ShadowPart.ofParameter? parameter with
  | some part =>
    [{ property := "box-shadow", value := ((Shadow.parse ((look "box-shadow").getD "")).set part value).css? }]
  | none =>
    match parameter with
    | "align" | "position" => align look value
    | "line-clamp" => lineClamp value
    | "background-image" => backgroundImage look value
    | "background-repeat" => backgroundRepeat value
    | _ => [{ property := parameter, value, important }]

def applyAll {S : Type} [RenderTarget S] (s : S) (n : Nat) (edits : List StyleEdit) : S :=
  edits.foldl (fun s e => setStyle s n e.property e.value e.important) s

end StyleEdit

/-- Something that gives a parameter of a node a value, or clears it. -/
abbrev StyleEffector (S : Type) := S → Nat → String → Option String → Bool → S

/-- The effect of parameters as inline styles. -/
def inlineStyles {S : Type} [RenderTarget S] : StyleEffector S := fun s n parameter value important =>
  StyleEdit.applyAll s n (StyleEdit.forParameter (style s n) parameter value important)

end BoundPage
