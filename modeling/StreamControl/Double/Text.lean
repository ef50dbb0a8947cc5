import StreamControl.Double.Shortest

/-!
# The text of a double

A finite double is written with the shortest digits that name it.  Numbers of moderate size stand in
positional notation, with at least one digit on each side of the point; the others have one digit
before the point and a signed exponent.  The sign of zero is kept.
-/

namespace StreamControl

namespace Decimal

/-- Which decimal exponents are written positionally: those from `least` up to, but not including,
`bound`. -/
structure Layout where
  least : Int
  bound : Int
deriving DecidableEq, Repr

/-- Numbers from `0.00001` up to, but not including, `10 ^ 16` are written positionally. -/
def Layout.moderate : Layout := ⟨-5, 16⟩

/-- The text of a positive decimal. -/
def text (layout : Layout) (d : Decimal) : String :=
  let ds := Nat.toDigits 10 d.digits
  let e : Int := d.exponent + ds.length - 1
  -- zeros stand between the point and the digits
  if layout.least ≤ e ∧ e < 0 then
    "0." ++ String.ofList (List.replicate (-e - 1).toNat '0' ++ ds)
  else if 0 ≤ e ∧ e < layout.bound then
    -- the digits are split at the point, and filled up with zeros to reach it
    let whole := ds.take (e.toNat + 1)
    let fraction := ds.drop (e.toNat + 1)
    String.ofList (whole ++ List.replicate (e.toNat + 1 - whole.length) '0') ++ "." ++
      (if fraction.isEmpty then "0" else String.ofList fraction)
  else
    String.ofList (ds.take 1) ++
      (if ds.length ≤ 1 then "" else "." ++ String.ofList (ds.drop 1)) ++
      "e" ++ (if e < 0 then "-" else "+") ++ toString e.natAbs

end Decimal

/-- The text of a finite double. -/
def Double.text (d : Double) : String :=
  (if d.isNegative then "-" else "") ++
    (if d.magnitude = 0 then "0.0"
      else (Decimal.shortest d.magnitude).text Decimal.Layout.moderate)

end StreamControl
