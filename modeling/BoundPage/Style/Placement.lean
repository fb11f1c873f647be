/-!
# Placement of a node in its parent

The style properties that put a node into one of nine places: those of a node with a position of its own, and those of
a node in the flow of a flexible parent.
-/
namespace BoundPage.Placement

/-- What the placement of a positioned node may set. -/
def positionedProperties : List String := ["left", "top", "transform", "right", "bottom"]

/-- What the placement of a node in the flow may set. -/
def flowProperties : List String := ["align-self", "margin-bottom", "margin-top", "margin-left"]

/-- The styles that put a positioned node into a place; other names place nothing. -/
def positioned (place : String) : List (String × String) :=
  match place with
  | "center" => [("left", "50%"), ("top", "50%"), ("transform", "translate(-50%,-50%)")]
  | "top" => [("left", "50%"), ("top", "0"), ("transform", "translateX(-50%)")]
  | "left" => [("left", "0"), ("top", "50%"), ("transform", "translateY(-50%)")]
  | "right" => [("right", "0"), ("top", "50%"), ("transform", "translate(-50%)")]
  | "bottom" => [("left", "50%"), ("bottom", "0"), ("transform", "translateX(-50%)")]
  | "top-left" => [("left", "0"), ("top", "0")]
  | "top-right" => [("right", "0"), ("top", "0")]
  | "bottom-left" => [("left", "0"), ("bottom", "0")]
  | "bottom-right" => [("right", "0"), ("bottom", "0")]
  | _ => []

/-- The styles that put a node in the flow into a place; other names place nothing. -/
def flow (place : String) : List (String × String) :=
  match place with
  | "center" => [("align-self", "center"), ("margin-bottom", "auto"), ("margin-top", "auto")]
  | "top" => [("align-self", "center"), ("margin-bottom", "auto")]
  | "left" => [("align-self", "flex-start"), ("margin-bottom", "auto"), ("margin-top", "auto")]
  | "right" =>
    [("align-self", "flex-end"), ("margin-bottom", "auto"), ("margin-top", "auto"), ("margin-left", "auto")]
  | "bottom" => [("align-self", "center"), ("margin-bottom", "0"), ("margin-top", "auto")]
  | "top-left" => [("align-self", "flex-start")]
  | "top-right" => [("align-self", "flex-end"), ("margin-left", "auto")]
  | "bottom-left" => [("align-self", "flex-start"), ("margin-bottom", "0"), ("margin-top", "auto")]
  | "bottom-right" =>
    [("align-self", "flex-end"), ("margin-bottom", "0"), ("margin-top", "auto"), ("margin-left", "auto")]
  | _ => []

end BoundPage.Placement
