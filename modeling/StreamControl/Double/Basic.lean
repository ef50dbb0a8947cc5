/-!
# Doubles

A double is its bit pattern: a sign and, in the 63 bits below it, a magnitude.  A finite magnitude
stands for `significand · 2 ^ exponent`; magnitudes grow with the numbers that they stand for, and
those from `infinite` on stand for no number.  Every pattern is a value of its own, also among those
that are not a number.
-/

namespace StreamControl

/-- A power of two. -/
def twoTo (n : Nat) : Nat := Nat.pow 2 n

/-- A power of ten. -/
def tenTo (n : Nat) : Nat := Nat.pow 10 n

/-- A double by its bit pattern. -/
structure Double where
  bits : UInt64
deriving DecidableEq, Repr

/-- The bits of a double below its sign. -/
abbrev Magnitude := Nat

namespace Magnitude

/-- The least magnitude that stands for no finite number. -/
def infinite : Magnitude := 2047 * twoTo 52

/-- Whether a magnitude stands for a finite number. -/
def isFinite (x : Magnitude) : Bool := x < infinite

/-- Which of the 2046 ranges of exponents a finite magnitude lies in. -/
def range (x : Magnitude) : Nat := x / twoTo 52

/-- The significand of a finite magnitude.  Below the first power of two that has all its digits
there is no hidden leading digit. -/
def significand (x : Magnitude) : Nat :=
  if x.range = 0 then x % twoTo 52 else twoTo 52 + x % twoTo 52

/-- The exponent of a finite magnitude. -/
def exponent (x : Magnitude) : Int :=
  if x.range = 0 then -1074 else (x.range : Int) - 1075

/-- The numerator of the number that a finite magnitude stands for. -/
def num (x : Magnitude) : Nat := x.significand * twoTo x.exponent.toNat

/-- The denominator of the number that a finite magnitude stands for. -/
def den (x : Magnitude) : Nat := twoTo (-x.exponent).toNat

end Magnitude

namespace Double

/-- The double with a given sign and magnitude. -/
def ofMagnitude (negative : Bool) (x : Magnitude) : Double :=
  ⟨((if negative then twoTo 63 else 0) + x).toUInt64⟩

/-- Whether the sign is set. -/
def isNegative (d : Double) : Bool := twoTo 63 ≤ d.bits.toNat

/-- The bits below the sign. -/
def magnitude (d : Double) : Magnitude := d.bits.toNat % twoTo 63

/-- Whether a double is a finite number. -/
def isFinite (d : Double) : Bool := d.magnitude.isFinite

/-- Whether a double is not a number. -/
def isNaN (d : Double) : Bool := Magnitude.infinite < d.magnitude

/-- Whether two doubles are equal as numbers: the two zeros are, and what is not a number equals
nothing. -/
def same (d e : Double) : Bool :=
  !d.isNaN && !e.isNaN && (d == e || d.magnitude == 0 && e.magnitude == 0)

end Double

end StreamControl
