import BoundPage.Text.Blank
import BoundPage.Text.Affix
/-!
# Integers a page counts with

A counter is an integer of 64 signed bits.  A text counts as an integer when it starts with one, blanks aside
(`leading?`), so `12px` counts as 12; a step is added by `step`, which clips to 64 bits first and wraps to the other
bound second.
-/
namespace BoundPage.Integer

def top : Int := 9223372036854775807

def bottom : Int := -9223372036854775808

def InRange (n : Int) : Prop := bottom ≤ n ∧ n ≤ top

instance (n : Int) : Decidable (InRange n) := inferInstanceAs (Decidable (_ ∧ _))

/-- The nearest integer of 64 signed bits. -/
def clip (n : Int) : Int := max bottom (min top n)

/-- The optional sign and what follows it. -/
def splitSign : List Char → Bool × List Char
  | '-' :: s => (true, s)
  | '+' :: s => (false, s)
  | s => (false, s)

/-- The integer a text starts with: blanks are dropped, one sign is read, then as many digits as there are, and the rest
is left alone.  A magnitude above `top` is no integer. -/
def leading? (text : String) : Option Int :=
  let signed := splitSign (Text.trimChars text.toList)
  let digits := signed.2.takeWhile Text.isDigit
  if digits.isEmpty then none
  else
    let magnitude : Int := Text.natOfDigits digits
    if magnitude ≤ top then some (if signed.1 then -magnitude else magnitude) else none

/-- Counts `amount` onwards from `value`.  Past the maximum the count goes on at the minimum, below the minimum at the
maximum; a missing minimum is 0, and without a maximum nothing wraps. -/
def step (value amount : Int) (min? max? : Option Int) : Int :=
  let next := clip (value + amount)
  match max? with
  | none => next
  | some hi =>
    let lo := min?.getD 0
    if hi < next then lo else if next < lo then hi else next

end BoundPage.Integer
