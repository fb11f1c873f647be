/-!
# The shortest decimal of a float

A finite float stands for every real that rounds to it.  `shortest` selects, among the decimals of that interval, one
with the fewest digits, and of those the nearest to the float.

All of it is arithmetic on natural numbers.  The float, and the two ends of its interval, are exact decimals: a multiple
of a power of two is `5 ^ k` times that multiple, `k` places to the right.  So the float is a natural number `mid` over
a power of ten, and the decimals with `n` digits are the multiples of a power of ten around `mid`.
-/
namespace BoundPage.Decimal

/-- The decimal `digits * 10 ^ exponent`. -/
structure Digits where
  digits : Nat
  exponent : Int
deriving DecidableEq, Repr

/-- The reals that round to one float: from `low` to `high`, times `10 ^ exponent`, the ends included when `closed`. -/
structure Interval where
  low : Nat
  mid : Nat
  high : Nat
  closed : Bool
  exponent : Int

/-- The interval of a finite positive float, from its bits.  In quarters of its last place, the ends are two quarters
away; below a power of two the neighbour is half as near, and so is that end. -/
def Interval.ofBits (bits : UInt64) : Interval :=
  let field : Nat := bits.toNat / Nat.pow 2 52 % Nat.pow 2 11
  let fraction : Nat := bits.toNat % Nat.pow 2 52
  let mantissa : Nat := if field = 0 then fraction else fraction + Nat.pow 2 52
  -- the power of two of one quarter of the last place
  let power : Int := (if field = 0 then 1 else (field : Int)) - 1077
  let below := if fraction = 0 ∧ 1 < field then 1 else 2
  let scale := if 0 ≤ power then Nat.pow 2 power.toNat else Nat.pow 5 (-power).toNat
  { low := (4 * mantissa - below) * scale
    mid := 4 * mantissa * scale
    high := (4 * mantissa + 2) * scale
    closed := mantissa % 2 == 0
    exponent := min power 0 }

def Interval.holds (i : Interval) (n : Nat) : Bool :=
  if i.closed then decide (i.low ≤ n ∧ n ≤ i.high) else decide (i.low < n ∧ n < i.high)

/-- Which of two decimals at the same distance is taken. -/
inductive Tie where
  /-- The one whose last digit is even. -/
  | toEven
  /-- The greater one. -/
  | up
deriving DecidableEq, Repr

/-- The multiple of `unit` in the interval that is nearest to `mid`, counted in units. -/
def Interval.nearest? (i : Interval) (tie : Tie) (unit : Nat) : Option Nat :=
  let below := i.mid / unit
  let rest := i.mid % unit
  match i.holds (below * unit), i.holds ((below + 1) * unit) with
  | false, false => none
  | true, false => some below
  | false, true => some (below + 1)
  | true, true =>
    if 2 * rest < unit then some below
    else if unit < 2 * rest then some (below + 1)
    else match tie with
      | .up => some (below + 1)
      | .toEven => some (if below % 2 = 0 then below else below + 1)

/-- How many decimal digits a natural number has. -/
def width (n : Nat) : Nat := (Nat.toDigits 10 n).length

/-- The same decimal without the zeros at the end of its digits; `fuel` bounds their number. -/
def Digits.strip : Nat → Digits → Digits
  | 0, d => d
  | fuel + 1, d =>
    if d.digits ≠ 0 ∧ d.digits % 10 = 0 then strip fuel ⟨d.digits / 10, d.exponent + 1⟩ else d

/-- The shortest decimal of the interval.  The units tried are the powers of ten from that of the leading digit of
`mid` down to 1; the last of them always has a hit, since `mid` itself is one. -/
def Interval.shortest (i : Interval) (tie : Tie) : Digits :=
  let places := width i.mid
  let hit := (List.range places).findSome? fun n =>
    (i.nearest? tie (Nat.pow 10 (places - 1 - n))).map fun d => Digits.mk d (i.exponent + (places - 1 - n : Nat))
  let digits := hit.getD ⟨i.mid, i.exponent⟩
  digits.strip (width digits.digits)

def shortest (x : Float) (tie : Tie) : Digits := (Interval.ofBits x.toBits).shortest tie

end BoundPage.Decimal
