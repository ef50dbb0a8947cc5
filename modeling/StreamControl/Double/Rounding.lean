import StreamControl.Double.Basic

/-!
# Rounding to doubles

`Magnitude.ofRatio` rounds an exact quotient to the nearest double, a tie to the even significand;
what is too large becomes infinite.  Products and quotients of doubles are rounded from their exact
values.
-/

namespace StreamControl

namespace Magnitude

/-- The natural number nearest to `a / b`, a tie going to the even one. -/
def roundQuotient (a b : Nat) : Nat :=
  let below := a / b
  match compare (2 * (a % b)) b with
  | .lt => below
  | .gt => below + 1
  | .eq => if below % 2 = 0 then below else below + 1

/-- The greatest `e` with `2 ^ e ≤ num / den`. -/
def binaryOrder (num den : Nat) : Int :=
  let e : Int := (num.log2 : Int) - den.log2
  if den * twoTo e.toNat ≤ num * twoTo (-e).toNat then e else e - 1

/-- The magnitude nearest to `num / den`.  The significand may round up to the next power of two;
its carry then moves into the exponent on its own. -/
def ofRatio (num den : Nat) : Magnitude :=
  if num = 0 then 0
  else
    -- the scale on which 53 binary digits stand before the point, or the lowest there is
    let q := max (binaryOrder num den - 52) (-1074)
    let m := roundQuotient (num * twoTo (-q).toNat) (den * twoTo q.toNat)
    min ((q + 1074).toNat * twoTo 52 + m) infinite

/-- The magnitude nearest to a natural number. -/
def ofNat (n : Nat) : Magnitude := ofRatio n 1

/-- The product of two finite magnitudes. -/
def product (x y : Magnitude) : Magnitude := ofRatio (x.num * y.num) (x.den * y.den)

/-- The quotient of two finite magnitudes. -/
def quotient (x y : Magnitude) : Magnitude := ofRatio (x.num * y.den) (x.den * y.num)

end Magnitude

end StreamControl
