import BoundPage.Text.Blank
import BoundPage.Text.Affix
/-!
# Box shadows

A box shadow is one property with five parts: a colour and four lengths.  `Shadow.parse` takes the property apart,
`Shadow.set` changes one part, and `Shadow.css?` puts it together again.
-/
namespace BoundPage

inductive ShadowPart where
  | offsetX
  | offsetY
  | blur
  | size
  | color
deriving DecidableEq, Repr

/-- The part that a style parameter stands for. -/
def ShadowPart.ofParameter? (parameter : String) : Option ShadowPart :=
  match parameter with
  | "shadow-offset-x" => some offsetX
  | "shadow-offset-y" => some offsetY
  | "shadow-blur" => some blur
  | "shadow-size" => some size
  | "shadow-color" => some color
  | _ => none

/-- The length of a part that is not set. -/
def zeroLength : String := "0px"

structure Shadow where
  color : Option String := none
  offsetX : String := zeroLength
  offsetY : String := zeroLength
  blur : String := zeroLength
  size : String := zeroLength
deriving DecidableEq, Repr

namespace Shadow

/-- A word that starts with a digit, a sign or a point is a length. -/
def isLength : List Char → Bool
  | [] => false
  | c :: _ => Text.isDigit c || c == '-' || c == '+' || c == '.'

/-- The colour in front of the lengths, and the lengths.  A functional colour ends at the last `) `; another colour is
one word. -/
def splitColor (css : List Char) : Option (List Char) × List (List Char) :=
  match Text.breakOnLast? [')', ' '] css with
  | some (color, rest) => (some (color ++ [')']), Text.words rest)
  | none =>
    match Text.words css with
    | [] => (none, [])
    | w :: ws => if isLength w then (none, w :: ws) else (some w, ws)

/-- The parts of a property value; missing lengths are zero. -/
def parse (css : String) : Shadow :=
  let (color, lengths) := splitColor (Text.trimChars css.toList)
  let length (i : Nat) : String := ((lengths[i]?).map String.ofList).getD zeroLength
  { color := color.map String.ofList
    offsetX := length 0
    offsetY := length 1
    blur := length 2
    size := length 3 }

/-- Sets one part; without a value the part goes back to none or to zero. -/
def set (s : Shadow) (part : ShadowPart) (value : Option String) : Shadow :=
  match part with
  | .color => { s with color := value }
  | .offsetX => { s with offsetX := value.getD zeroLength }
  | .offsetY => { s with offsetY := value.getD zeroLength }
  | .blur => { s with blur := value.getD zeroLength }
  | .size => { s with size := value.getD zeroLength }

def lengths (s : Shadow) : List String := [s.offsetX, s.offsetY, s.blur, s.size]

def isZero (length : String) : Bool := length == "0" || length == zeroLength

/-- The value of the property; a shadow without colour and without a length is none. -/
def css? (s : Shadow) : Option String :=
  if s.color.isNone && s.lengths.all isZero then none
  else some (" ".intercalate (s.color.toList ++ s.lengths))

end Shadow
end BoundPage
