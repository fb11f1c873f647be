import BoundPage.Text.Blank
import BoundPage.Text.Affix
import BoundPage.Decimal.Shortest
/-!
# Reading a decimal

The decimal numbers a page accepts: an optional sign, digits with at most one point and at least one digit, and an
optional exponent; or `Infinity` with an optional sign.  The float is the nearest one, ties to even.
-/
namespace BoundPage.Decimal

/-- The nearest float.  The exponents beyond the range of floats are settled first, so that no great power is formed. -/
def toFloat (digits : Nat) (exponent : Int) : Float :=
  if digits = 0 then 0
  else
    let leading := exponent + width digits
    if 310 < leading then 1 / 0
    else if leading < -330 then 0
    else Float.ofScientific digits (decide (exponent < 0)) exponent.natAbs

/-- The exponent after `e` or `E`, or 0 when nothing is left. -/
def exponent? : List Char → Option Int
  | [] => some 0
  | mark :: s =>
    if mark == 'e' || mark == 'E' then
      let signed : Bool × List Char := match s with
        | '-' :: r => (true, r)
        | '+' :: r => (false, r)
        | r => (false, r)
      if signed.2.isEmpty || !signed.2.all Text.isDigit then none
      else
        let n : Int := Text.natOfDigits signed.2
        some (if signed.1 then -n else n)
    else none

/-- The magnitude an unsigned text stands for. -/
def magnitude? (s : List Char) : Option Float := do
  let whole := s.takeWhile Text.isDigit
  let rest := s.dropWhile Text.isDigit
  let (fraction, rest) := match rest with
    | '.' :: r => (r.takeWhile Text.isDigit, r.dropWhile Text.isDigit)
    | r => ([], r)
  if whole.isEmpty && fraction.isEmpty then none
  else
    let e ← exponent? rest
    return toFloat (Text.natOfDigits (whole ++ fraction)) (e - fraction.length)

def read? (text : String) : Option Float :=
  let (negative, unsigned) := match Text.trimChars text.toList with
    | '-' :: s => (true, s)
    | '+' :: s => (false, s)
    | s => (false, s)
  let value := if unsigned = "Infinity".toList then some (1 / 0) else magnitude? unsigned
  value.map fun x => if negative then -x else x

end BoundPage.Decimal
