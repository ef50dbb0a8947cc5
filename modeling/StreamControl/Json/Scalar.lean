import StreamControl.Json.Passing

/-!
# Single values of a wanted kind

Readers for texts, booleans, integers, optional values and lists, and the forms in which these are
written.  Where something else stands, `unexpected` says what it is; a text or numeral there is read
first, so that a fault inside it is the one reported.
-/

namespace StreamControl.Json

namespace Reader

/-- Says what stands at the front instead of the wanted thing. -/
def unexpected {α : Type} (wanted : String) : Reader α := do
  match ← ahead with
  | none => ended
  | some b =>
    if b = Byte.lowerN then
      word (utf8 "null")
      mismatch (.wrongType .null wanted)
    else if b = Byte.lowerT then
      word (utf8 "true")
      mismatch (.wrongType (.boolean true) wanted)
    else if b = Byte.lowerF then
      word (utf8 "false")
      mismatch (.wrongType (.boolean false) wanted)
    else if startsNumber b then
      match ← number with
      | .integer n => mismatch (.wrongType (.integer n) wanted)
      | .real x => mismatch (.wrongType (.real x) wanted)
    else if b = Byte.quote then
      advance
      mismatch (.wrongType (.string (← text)) wanted)
    else if b = Byte.openBracket then mismatch (.wrongType .sequence wanted)
    else if b = Byte.openBrace then mismatch (.wrongType .map wanted)
    else malformed

/-- Reads a text; `wanted` names it in a mismatch. -/
def textAs (wanted : String) : Reader String := do
  match ← ahead with
  | some Byte.quote =>
    advance
    text
  | _ => unexpected wanted

/-- Reads a text. -/
def string : Reader String := textAs "a string"

/-- Reads `true` or `false`. -/
def boolean : Reader Bool := do
  match ← ahead with
  | some Byte.lowerT =>
    word (utf8 "true")
    pure true
  | some Byte.lowerF =>
    word (utf8 "false")
    pure false
  | _ => unexpected "a boolean"

/-- Reads an integer from `least` to `greatest`; `wanted` names the range in a mismatch. -/
def integer (wanted : String) (least greatest : Int) : Reader Int := do
  match ← ahead with
  | none => ended
  | some b =>
    if startsNumber b then
      match ← number with
      | .integer n =>
        if least ≤ n ∧ n ≤ greatest then pure n else mismatch (.outOfRange n wanted)
      | .real x => mismatch (.wrongType (.real x) wanted)
    else unexpected wanted

/-- Reads a 64-bit integer. -/
def int64 : Reader Int64 :=
  Int64.ofInt <$> integer "i64" Int64.minValue.toInt Int64.maxValue.toInt

/-- Reads a 32-bit integer. -/
def int32 : Reader Int32 :=
  Int32.ofInt <$> integer "i32" Int32.minValue.toInt Int32.maxValue.toInt

/-- Reads `null`, where a value may be absent but nothing else may stand. -/
def unit : Reader Unit := do
  match ← ahead with
  | some Byte.lowerN => word (utf8 "null")
  | _ => unexpected "unit"

/-- Reads a value or, in its place, `null`. -/
def optional {α : Type} (read : Reader α) : Reader (Option α) := do
  match ← ahead with
  | some Byte.lowerN =>
    word (utf8 "null")
    pure none
  | _ => some <$> read

/-- Reads an array whose elements `read` reads one level further down. -/
def list {α : Type} (read : (depth : Nat) → Reader α) (depth : Nat) : Reader (List α) := do
  match ← ahead with
  | some Byte.openBracket =>
    match depth with
    | 0 => malformed
    | depth + 1 =>
      advance
      List.reverse <$> members Byte.closeBracket (fun done => (· :: done) <$> read depth) []
  | _ => unexpected "a sequence"

end Reader

/-! ## Writing -/

/-- The form of `true` and `false`. -/
def booleanBytes (b : Bool) : Bytes := utf8 (if b then "true" else "false")

/-- The form of an integer. -/
def integerBytes (n : Int) : Bytes := utf8 (toString n)

/-- The form of a double; what is not a finite number is written as `null`. -/
def realBytes (x : Double) : Bytes := utf8 (if x.isFinite then x.text else "null")

/-- An array of values already in their written form. -/
def listBytes (items : List Bytes) : Bytes :=
  Byte.openBracket :: ([Byte.comma].intercalate items ++ [Byte.closeBracket])

end StreamControl.Json
