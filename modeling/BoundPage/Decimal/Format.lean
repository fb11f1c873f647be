import BoundPage.Decimal.Shortest
/-!
# How a decimal is written

A `Format` holds the decisions a format takes: up to which exponents a number is written in full, whether a whole
number keeps `.0`, how a positive exponent is marked.  `Format.write` follows them.
-/
namespace BoundPage.Decimal

/-- The decisions of a number format.  The exponent meant is that of the leading digit. -/
structure Format where
  /-- The least exponent that is written in full. -/
  plainFrom : Int
  /-- The first exponent that is too great to be written in full. -/
  plainBelow : Int
  /-- A whole number written in full ends in `.0`. -/
  pointZero : Bool
  /-- Zero keeps its sign. -/
  signedZero : Bool
  zero : String
  tie : Tie

def plain (pointZero : Bool) (digits : List Char) (exponent : Int) : List Char :=
  if 0 ≤ exponent then
    digits ++ List.replicate exponent.toNat '0' ++ (if pointZero then ['.', '0'] else [])
  else
    let places := (-exponent).toNat
    let padded := List.replicate (places + 1 - digits.length) '0' ++ digits
    padded.take (padded.length - places) ++ '.' :: padded.drop (padded.length - places)

/-- A positive decimal with one digit before the point and the exponent of that digit; a positive exponent has a plus
sign. -/
def scientific (digits : List Char) (leading : Int) : List Char :=
  let fraction := digits.drop 1
  digits.take 1 ++ (if fraction.isEmpty then [] else '.' :: fraction) ++
    'e' :: (if leading < 0 then '-' else '+') :: Nat.toDigits 10 leading.natAbs

def Format.write (f : Format) (x : Float) : String :=
  let negative := decide (Nat.pow 2 63 ≤ x.toBits.toNat)
  if x == 0 then (if negative && f.signedZero then "-" else "") ++ f.zero
  else
    let d := shortest x.abs f.tie
    let digits := Nat.toDigits 10 d.digits
    let leading := d.exponent + digits.length - 1
    let body :=
      if f.plainFrom ≤ leading ∧ leading < f.plainBelow then plain f.pointZero digits d.exponent
      else scientific digits leading
    String.ofList ((if negative then ['-'] else []) ++ body)

end BoundPage.Decimal
