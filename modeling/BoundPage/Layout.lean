import BoundPage.Target
import BoundPage.Text.Blank
import BoundPage.Text.Affix
/-!
# Showing nodes and the space between them

How a node is displayed when it is shown follows from styles it keeps while it is hidden (`Layout.detect`).  A parent
may carry a spacing rule, a property and a value; `refreshSpacing` gives it to every child after the first visible one.
-/
namespace BoundPage
open RenderTarget

/-- The ways a visible node is displayed. -/
inductive Layout where
  | flex
  | lineClamp
  | grid
  | block
deriving DecidableEq, Repr

namespace Layout

variable {S : Type} [RenderTarget S]

/-- The layout a node was made for. -/
def detect (s : S) (n : Nat) : Layout :=
  if hasStyle s n "flex-direction" then flex
  else if hasStyle s n "-webkit-line-clamp" then lineClamp
  else if hasStyle s n "grid-template-areas" then grid
  else block

def display : Layout → String
  | flex => "flex"
  | lineClamp => "-webkit-box"
  | grid => "grid"
  | block => "block"

/-- The attribute of a parent that holds its spacing rule. -/
def spacingAttribute : String := "spacing"

/-- The property and the value of a rule, on the two sides of its first colon. -/
def splitRule? (rule : String) : Option (String × String) :=
  (Text.breakOn? [':'] rule.toList).map fun (property, value) =>
    (String.ofList (Text.trimChars property), String.ofList (Text.trimChars value))

/-- The rule of a parent, if it has a well-formed one. -/
def spacingRule? (s : S) (parent : Nat) : Option (String × String) :=
  (attributeOf s parent spacingAttribute).bind splitRule?

/-- Spaces children: hidden ones at the front are left alone, the first visible one has the property cleared, and every
later one has it set. -/
def spaceChildren (s : S) (property value : String) (children : List Nat) : S :=
  match children.dropWhile fun c => !isVisible s c with
  | [] => s
  | first :: later =>
    later.foldl (fun s c => setStyle s c property (some value) false) (setStyle s first property none false)

/-- Spaces a node and its siblings by the rule of their parent. -/
def refreshSpacing (s : S) (n : Nat) : S :=
  match parent s n with
  | none => s
  | some p =>
    match spacingRule? s p with
    | none => s
    | some (property, value) => spaceChildren s property value (children s p)

end Layout
end BoundPage
