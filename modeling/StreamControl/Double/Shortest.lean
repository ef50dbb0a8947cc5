import StreamControl.Double.Basic

/-!
# The shortest decimal that names a double

A finite double stands for every real number that rounds to it: an interval around its own value,
whose ends belong to it exactly when its significand is even.  `Decimal.shortest` finds the decimal
with the fewest digits inside that interval and, of several with as few digits, the one nearest to
the value; an exact tie goes to the even last digit.  All of it is exact arithmetic on natural
numbers.
-/

namespace StreamControl

/-- A positive decimal number `digits · 10 ^ exponent`. -/
structure Decimal where
  digits : Nat
  exponent : Int
deriving DecidableEq, Repr

/-- The reals that round to a positive double, in units of `2 ^ scale`: those between `low` and
`high` around the value `mid`, the two ends included when `closed`. -/
structure Decimal.Interval where
  low : Nat
  mid : Nat
  high : Nat
  scale : Int
  closed : Bool
deriving DecidableEq, Repr

namespace Decimal

/-- The interval of a positive finite magnitude.  Below a power of two the doubles lie twice as
close, so the interval reaches half as far down. -/
def Interval.ofMagnitude (x : Magnitude) : Interval :=
  let m := x.significand
  { low := if x % twoTo 52 = 0 ∧ 1 < x.range then 4 * m - 1 else 4 * m - 2
    mid := 4 * m
    high := 4 * m + 2
    scale := x.exponent - 2
    closed := m % 2 = 0 }

/-- How many decimal digits a natural number has. -/
def digitCount (n : Nat) : Nat := (Nat.toDigits 10 n).length

/-- A common unit for the decimal grid `10 ^ k` and an interval's own unit `2 ^ scale`: the first
component is one step of the grid and the second one unit of the interval. -/
def units (scale k : Int) : Nat × Nat :=
  (tenTo k.toNat * twoTo (-scale).toNat, twoTo scale.toNat * tenTo (-k).toNat)

/-- The multiple of `10 ^ k` inside the interval that is nearest to its value, if there is one. -/
def Interval.onGrid? (i : Interval) (k : Int) : Option Nat :=
  let (step, unit) := units i.scale k
  let inside (d : Nat) : Bool :=
    if i.closed then i.low * unit ≤ d * step && d * step ≤ i.high * unit
    else i.low * unit < d * step && d * step < i.high * unit
  let below := i.mid * unit / step
  match inside below, inside (below + 1) with
  | false, false => none
  | true, false => some below
  | false, true => some (below + 1)
  | true, true =>
    -- both neighbours lie inside, so the nearer one is taken
    match compare (2 * (i.mid * unit)) ((2 * below + 1) * step) with
    | .lt => some below
    | .gt => some (below + 1)
    | .eq => some (if below % 2 = 0 then below else below + 1)

/-- The exponent of the leading digit of the interval's value: `10 ^ e ≤ value < 10 ^ (e + 1)`. -/
def Interval.decimalOrder (i : Interval) : Int :=
  let (step, unit) := units i.scale 0
  let value := i.mid * unit
  if step ≤ value then digitCount (value / step) - 1
  else
    -- below one the leading digit is found from the reciprocal, rounded up
    let reciprocal := (step + value - 1) / value
    Int.negOfNat (if reciprocal ≤ 1 then 0 else digitCount (reciprocal - 1))

/-- Drops the zeros at the end of the digits, as far as `fuel` reaches. -/
def stripZeros : (fuel : Nat) → Decimal → Decimal
  | 0, d => d
  | fuel + 1, d =>
    if d.digits ≠ 0 ∧ d.digits % 10 = 0 then stripZeros fuel ⟨d.digits / 10, d.exponent + 1⟩ else d

/-- The first of the grids `10 ^ k`, `10 ^ (k - 1)`, … that has a point in the interval; with no
such grid among the first `fuel`, the value's own digits on the last one. -/
def Interval.coarsest (i : Interval) : (fuel : Nat) → (k : Int) → Decimal
  | 0, k => let (step, unit) := units i.scale k; ⟨i.mid * unit / step, k⟩
  | fuel + 1, k =>
    match i.onGrid? k with
    | some d => ⟨d, k⟩
    | none => i.coarsest fuel (k - 1)

/-- Seventeen digits always tell a double from its neighbours. -/
def maxDigits : Nat := 17

/-- The shortest decimal of a positive finite magnitude. -/
def shortest (x : Magnitude) : Decimal :=
  let i := Interval.ofMagnitude x
  stripZeros maxDigits (i.coarsest maxDigits i.decimalOrder)

end Decimal

end StreamControl
