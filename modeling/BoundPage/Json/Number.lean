import BoundPage.Text.Affix
import BoundPage.Decimal.Format
/-!
# JSON numbers

A number without point and exponent is an integer as long as it fits 64 bits, signed or unsigned; every other number is
a float, and so is `-0`.

The float is computed with one multiplication or division: the digits that fit 64 unsigned bits form a significand, the
others only move the exponent or are dropped, and the significand is scaled by a power of ten.  That is not always the
nearest float.  A number above the range of floats has no value.
-/
namespace BoundPage.Json

inductive Number where
  | int (n : Int)
  | float (x : Float)

namespace Number

/-- Floats are written in full while the exponent of the leading digit is from -5 to 15, and always with a fraction. -/
def floatFormat : Decimal.Format where
  plainFrom := -5
  plainBelow := 16
  pointZero := true
  signedZero := true
  zero := "0.0"
  tie := .toEven

def render : Number → String
  | .int n => toString n
  | .float x => floatFormat.write x

/-- A number as it stands in a text, in its parts. -/
structure Literal where
  negative : Bool
  whole : List Char
  /-- The digits after the point; empty when there is no point. -/
  fraction : List Char
  /-- Whether the exponent is negative, and its digits. -/
  exponent : Option (Bool × List Char)

/-- The greatest integer of 64 unsigned bits. -/
def greatest : Nat := Nat.pow 2 64 - 1

/-- Appends digits to a significand up to the first one that would take it above 64 bits, and counts those left out. -/
def absorb (significand : Nat) : List Char → Nat × Nat
  | [] => (significand, 0)
  | c :: cs =>
    let next := 10 * significand + Text.digitValue c
    if next ≤ greatest then absorb next cs else (significand, (c :: cs).length)

def tenTo (n : Nat) : Float := Float.ofScientific 1 false n

/-- The significand times a power of ten, or `none` above the range of floats.  A power below `1e-308` is applied in two
steps, and one below `1e-616` leaves nothing. -/
def scale? (significand : Nat) (exponent : Int) : Option Float :=
  let x := significand.toUInt64.toFloat
  if 308 < exponent then (if significand = 0 then some 0 else none)
  else if 0 ≤ exponent then
    let scaled := x * tenTo exponent.toNat
    if scaled.isInf then none else some scaled
  else if -308 ≤ exponent then some (x / tenTo (-exponent).toNat)
  else if -616 ≤ exponent then some (x / tenTo 308 / tenTo (-(exponent + 308)).toNat)
  else some 0

/-- The greatest exponent that is taken at its value. -/
def greatestExponent : Nat := Nat.pow 2 31 - 1

/-- The magnitude of a literal that is no integer. -/
def Literal.magnitude? (l : Literal) : Option Float :=
  let whole := absorb 0 l.whole
  let all := absorb whole.1 l.fraction
  let shift : Int := (whole.2 : Int) - ((l.fraction.length : Int) - all.2)
  match l.exponent with
  | none => scale? all.1 shift
  | some (negative, digits) =>
    let exponent := Text.natOfDigits digits
    if exponent ≤ greatestExponent then
      scale? all.1 (if negative then shift - exponent else shift + exponent)
    else if all.1 ≠ 0 ∧ !negative then none
    else some 0

/-- What a literal stands for. -/
def ofLiteral? (l : Literal) : Option Number :=
  let whole := absorb 0 l.whole
  let isInteger := l.fraction.isEmpty && l.exponent.isNone && decide (whole.2 = 0)
  if isInteger && !l.negative then some (.int whole.1)
  else if isInteger && decide (0 < whole.1 ∧ whole.1 ≤ Nat.pow 2 63) then some (.int (-(whole.1 : Int)))
  else l.magnitude?.map fun x => .float (if l.negative then -x else x)

end Number
end BoundPage.Json
