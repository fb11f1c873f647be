import BoundPage.Decimal.Format
/-!
# The values written into variables

A variable always holds text.  A typed value becomes text on its way in, and whoever reads it parses it again.
-/
namespace BoundPage

/-- A value handed to a variable. -/
inductive Scalar where
  | text (s : String)
  | integer (n : Int)
  | decimal (x : Float)
  | boolean (b : Bool)

namespace Scalar

/-- Numbers are written in full from `1e-6` up to, and not including, `1e21`; a whole number has no fraction and zero
no sign. -/
def number : Decimal.Format where
  plainFrom := -6
  plainBelow := 21
  pointZero := false
  signedZero := false
  zero := "0"
  tie := .up

def render : Scalar → String
  | .text s => s
  | .integer n => toString n
  | .decimal x =>
    if x.isNaN then "NaN"
    else if x.isInf then (if 0 < x then "Infinity" else "-Infinity")
    else number.write x
  | .boolean b => if b then "true" else "false"

end Scalar
end BoundPage
