import StreamControl.Column
import StreamControl.Json.Record

/-!
# Columns on the wire

A value is a bare scalar; a numeral is an integer if 64 bits with a sign hold it and a double
otherwise.  A type is its name, or an object with its name as the only key.  A column is a record.
-/

namespace StreamControl

open Json

/-! ## Values -/

namespace Value

/-- The value that a numeral denotes. -/
def ofNumeral : Numeral → Value
  | .integer n =>
    if n ≤ Int64.maxValue.toInt then .integer (Int64.ofInt n)
    -- without a sign 64 bits hold more integers than with one
    else .real (.ofMagnitude false (.ofNat n.toNat))
  | .real x => .real x

/-- Reads a value.  An array or object is read to its end and then refused. -/
def reader (depth : Nat) : Reader Value := do
  match ← Reader.ahead with
  | none => Reader.ended
  | some b =>
    if b = Byte.lowerN then
      Reader.word (utf8 "null")
      pure .null
    else if b = Byte.lowerT then
      Reader.word (utf8 "true")
      pure (.boolean true)
    else if b = Byte.lowerF then
      Reader.word (utf8 "false")
      pure (.boolean false)
    else if Reader.startsNumber b then ofNumeral <$> Reader.number
    else if b = Byte.quote then
      Reader.advance
      text <$> Reader.text
    else
      Reader.passStrictly depth
      Reader.mismatch .notAValue

/-- The written form of a value. -/
def bytes : Value → Bytes
  | .null => utf8 "null"
  | .boolean b => booleanBytes b
  | .integer n => integerBytes n.toInt
  | .real x => realBytes x
  | .text s => textBytes s

end Value

/-! ## Types -/

namespace DataType

/-- Reads the name of a type between quotes.  The name of an object's only member is a key, and in the
place of a key nothing else is well formed; so what is found there instead is not told by its kind. -/
def nameReader : Reader DataType := do
  let name ← Reader.key Reader.text
  match ofName? name with
  | some t => pure t
  | none => Reader.mismatch (.unknownVariant name (all.map DataType.name))

/-- Reads a type.  Nothing but a text or an object is looked at. -/
def reader (depth : Nat) : Reader DataType := do
  match ← Reader.ahead with
  | none => Reader.ended
  | some Byte.quote => nameReader
  | some Byte.openBrace =>
    match depth with
    | 0 => Reader.malformed
    | _ + 1 =>
      Reader.advance
      let t ← nameReader
      Reader.colon
      Reader.unit
      match ← Reader.ahead with
      | some Byte.closeBrace =>
        Reader.advance
        pure t
      | some _ => Reader.malformed
      | none => Reader.ended
  | some _ => Reader.malformed

/-- The written form of a type. -/
def bytes (t : DataType) : Bytes := textBytes t.name

end DataType

/-! ## Columns -/

namespace Column

/-- The fields of a column. -/
inductive Field
  | name
  | type
  | value
deriving DecidableEq

/-- What each field holds. -/
abbrev Field.Content : Field → Type
  | .name => String
  | .type => Option DataType
  | .value => Value

/-- A column is written with its type only if it declares one. -/
def format : RecordFormat Column where
  Field := Field
  Content := Field.Content
  name := "ColumnValue"
  fields := [.name, .type, .value]
  mem_fields f := by cases f <;> decide
  key
    | .name => "column"
    | .type => "type"
    | .value => "value"
  read
    | .name, _ => Reader.string
    | .type, depth => Reader.optional (DataType.reader depth)
    | .value, depth => Value.reader depth
  write
    | .name, s => some (textBytes s)
    | .type, t => t.map DataType.bytes
    | .value, v => some v.bytes
  absent
    | .name => none
    | .type => some none
    | .value => some .null
  make content := ⟨content .name, content .type, content .value⟩
  get c
    | .name => c.name
    | .type => c.type
    | .value => c.value
  make_get _ := rfl

/-- Reads a list of columns. -/
def listReader : (depth : Nat) → Reader (List Column) := Reader.list format.reader

/-- The written form of a list of columns. -/
def listJson (columns : List Column) : Bytes := listBytes (columns.map format.bytes)

end Column

end StreamControl
