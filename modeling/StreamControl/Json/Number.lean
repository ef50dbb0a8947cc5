import StreamControl.Double.Rounding
import StreamControl.Json.Reader

/-!
# Numbers

A numeral without a point or an exponent is an integer if it lies between `-2 ^ 63` and `2 ^ 64 -
1`.  Every other numeral is a double.  Its digits are gathered as long as they fit 64 bits; those
that no longer fit only shift the decimal exponent (before the point) or are ignored (behind it),
and one multiplication or division by a power of ten then gives the result, which may differ from
the nearest double in the last place.  Minus zero is a double, because integers know no sign of
zero.
-/

namespace StreamControl.Json

/-- What a numeral denotes. -/
inductive Numeral
  | integer (n : Int)
  | real (x : Double)
deriving DecidableEq, Repr

namespace Numeral

/-! ## Digits -/

/-- The largest number that 64 bits hold. -/
def maxWord : Nat := twoTo 64 - 1

/-- Appends digits to `m` while the number stays within 64 bits.  Gives the number, how many digits
were taken, and the bytes from the first that was not taken. -/
def gather : (m : Nat) → Bytes → Nat × Nat × Bytes
  | m, [] => (m, 0, [])
  | m, b :: bytes =>
    match Byte.digit? b with
    | none => (m, 0, b :: bytes)
    | some d =>
      if m * 10 + d ≤ maxWord then
        let (total, count, rest) := gather (m * 10 + d) bytes
        (total, count + 1, rest)
      else (m, 0, b :: bytes)

/-- The number that the digits in front append to `m`, whatever its size, and the bytes after. -/
def gatherAll : (m : Nat) → Bytes → Nat × Bytes
  | m, [] => (m, [])
  | m, b :: bytes =>
    match Byte.digit? b with
    | none => (m, b :: bytes)
    | some d => gatherAll (m * 10 + d) bytes

/-- How many digits stand in front, and the bytes after them. -/
def countDigits : Bytes → Nat × Bytes
  | [] => (0, [])
  | b :: bytes =>
    if (Byte.digit? b).isSome then
      let (count, rest) := countDigits bytes
      (count + 1, rest)
    else (0, b :: bytes)

/-! ## Scaling -/

/-- The double nearest to `10 ^ n`. -/
def powerOfTen (n : Nat) : Magnitude := .ofNat (tenTo n)

/-- The largest power of ten below the largest double is `10 ^ 308`. -/
def maxPower : Nat := 308

/-- Divides by `10 ^ n`, in several steps if `10 ^ n` is out of range. -/
def shrink (x : Magnitude) (n : Nat) : Magnitude :=
  if n ≤ maxPower then x.quotient (powerOfTen n)
  else if x = 0 then x
  else shrink (x.quotient (powerOfTen maxPower)) (n - maxPower)
termination_by n
decreasing_by simp only [maxPower] at *; omega

/-- Multiplies by `10 ^ n`; nothing if the result is out of range. -/
def grow? (x : Magnitude) (n : Nat) : Option Magnitude :=
  if n ≤ maxPower then
    let y := x.product (powerOfTen n)
    if y.isFinite then some y else none
  else if x = 0 then some x
  else none

/-- The magnitude that `m · 10 ^ e` is read as; nothing if it is out of range. -/
def scaled? (m : Nat) (e : Int) : Option Magnitude :=
  if e < 0 then some (shrink (.ofNat m) e.natAbs) else grow? (.ofNat m) e.natAbs

/-- An integral numeral: an integer where its range allows, else the double. -/
def ofInteger (negative : Bool) (m : Nat) : Numeral :=
  if negative then
    -- a minus sign before a zero cannot be kept in an integer
    if 0 < m ∧ m ≤ twoTo 63 then .integer (-m) else .real (.ofMagnitude true (.ofNat m))
  else .integer m

end Numeral

namespace Reader

open Numeral

/-! ## Reading a numeral -/

/-- Ends a numeral that denotes a double. -/
def real (negative : Bool) (m : Nat) (e : Int) : Reader Numeral :=
  match scaled? m e with
  | some x => pure (.real (.ofMagnitude negative x))
  | none => malformed

/-- Reads the digits of an exponent behind its letter and sign. -/
def exponentDigits : Reader Nat
  | [] => .error .ended
  | b :: bytes =>
    match Byte.digit? b with
    | none => .error .malformed
    | some d => .ok (gatherAll d bytes)

/-- Reads an exponent behind its letter. -/
def exponent : Reader Int
  | Byte.plus :: bytes => (Int.ofNat <$> exponentDigits) bytes
  | Byte.minus :: bytes => (Int.negOfNat <$> exponentDigits) bytes
  | bytes => (Int.ofNat <$> exponentDigits) bytes

/-- Reads what may follow the digits of a double: an exponent, or nothing. -/
def realTail (negative : Bool) (m : Nat) (e : Int) : Reader Numeral
  | Byte.lowerE :: bytes | Byte.upperE :: bytes =>
    (do real negative m (e + (← exponent))) bytes
  | bytes => real negative m e bytes

/-- Reads the digits behind a point, at least one, and what may follow them.  Digits that do not fit
any more are passed over. -/
def fraction (negative : Bool) (m : Nat) (e : Int) : Reader Numeral := fun bytes =>
  let (total, taken, rest) := gather m bytes
  -- digits that no longer fit say nothing, but without any digit the numeral is malformed
  let (passed, rest) := countDigits rest
  if taken + passed = 0 then
    if rest.isEmpty then .error .ended else .error .malformed
  else realTail negative total (e - taken) rest

/-- Reads what may follow the digits before the point, of which `dropped` did not fit. -/
def integerTail (negative : Bool) (m dropped : Nat) : Reader Numeral
  | Byte.point :: bytes => fraction negative m dropped bytes
  | bytes@(Byte.lowerE :: _) | bytes@(Byte.upperE :: _) => realTail negative m dropped bytes
  | bytes =>
    -- the digits dropped still count for the size of the number
    if dropped = 0 then .ok (ofInteger negative m, bytes) else real negative m dropped bytes

/-- Reads a numeral behind its sign.  A zero in front may not be followed by another digit. -/
def unsigned (negative : Bool) : Reader Numeral
  | [] => .error .ended
  | b :: bytes =>
    match Byte.digit? b with
    | none => .error .malformed
    -- no digit may stand behind a zero in front
    | some 0 =>
      if (bytes.head?.bind Byte.digit?).isSome then .error .malformed
      else integerTail negative 0 0 bytes
    | some d =>
      let (m, _, rest) := gather d bytes
      let (dropped, rest) := countDigits rest
      integerTail negative m dropped rest

/-- Reads a numeral. -/
def number : Reader Numeral
  | Byte.minus :: bytes => unsigned true bytes
  | bytes => unsigned false bytes

/-! ## Passing over a numeral -/

/-- Passes over the exponent of a numeral, if it has one. -/
def passExponent : Reader Unit
  | Byte.lowerE :: bytes | Byte.upperE :: bytes =>
    let bytes := match bytes with
      | Byte.plus :: rest | Byte.minus :: rest => rest
      | rest => rest
    match countDigits bytes with
    | (0, _) => .error .malformed
    | (_, rest) => .ok ((), rest)
  | bytes => .ok ((), bytes)

/-- Passes over a numeral whose value is of no interest: its form is checked, its range is not, and
every fault in it counts as malformed. -/
def passNumber : Reader Unit := fun bytes =>
  let bytes := match bytes with
    | Byte.minus :: rest => rest
    | rest => rest
  match bytes with
  | [] => .error .malformed
  | b :: rest =>
    match Byte.digit? b with
    | none => .error .malformed
    | some d =>
      let (count, rest) := countDigits rest
      -- the form is that of a numeral that is read: no digit behind a zero in front
      if d = 0 ∧ 0 < count then .error .malformed
      else
        match rest with
        | Byte.point :: rest =>
          match countDigits rest with
          | (0, _) => .error .malformed
          | (_, rest) => passExponent rest
        | rest => passExponent rest

end Reader

end StreamControl.Json
