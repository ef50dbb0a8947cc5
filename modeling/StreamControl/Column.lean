import StreamControl.Double.Basic

/-!
# Columns

What a message carries and what a stream declares.  A `Value` is a scalar; a `DataType` says which
values a declared column accepts; a `Column` is one entry of a payload, with a declared type when
the message defines a stream and usually with a value only when it feeds one.
-/

namespace StreamControl

/-- A scalar carried by a column. -/
inductive Value
  | null
  | boolean (b : Bool)
  | integer (n : Int64)
  | real (x : Double)
  | text (s : String)
deriving DecidableEq, Repr

/-- The kind of a value in a diagnostic. -/
def Value.kind : Value → String
  | .null => "null"
  | .boolean _ => "boolean"
  | .integer _ => "integer"
  | .real _ => "float"
  | .text _ => "string"

/-- Whether two values are equal, doubles being compared as numbers. -/
def Value.same : Value → Value → Bool
  | .real x, .real y => x.same y
  | v, w => v == w

/-- The declared type of a column. -/
inductive DataType
  | string
  | boolean
  | integer
  | long
  | float
  | double
deriving DecidableEq, Repr

namespace DataType

/-- Every type, in the order in which a diagnostic lists them. -/
def all : List DataType := [.string, .boolean, .integer, .long, .float, .double]

/-- The name of a type. -/
def name : DataType → String
  | .string => "STRING"
  | .boolean => "BOOLEAN"
  | .integer => "INTEGER"
  | .long => "LONG"
  | .float => "FLOAT"
  | .double => "DOUBLE"

/-- The type with a given name; case counts. -/
def ofName? (name : String) : Option DataType := all.find? fun t => t.name == name

/-- A type is found by its name. -/
theorem ofName?_name (t : DataType) : ofName? t.name = some t := by cases t <;> decide

/-- Whether an integer lies in the range of 32 bits. -/
def fitsInt32 (n : Int64) : Bool := -2147483648 ≤ n.toInt && n.toInt ≤ 2147483647

/-- Whether a column of this type may hold a value.  Null fits everywhere, an integer column holds
32 bits and a long column 64, and integers widen into the floating types. -/
def accepts : DataType → Value → Bool
  | _, .null => true
  | .string, .text _ => true
  | .boolean, .boolean _ => true
  | .integer, .integer n => fitsInt32 n
  | .long, .integer _ | .float, .integer _ | .double, .integer _ => true
  | .float, .real _ | .double, .real _ => true
  | _, _ => false

end DataType

/-- One entry of a payload. -/
structure Column where
  name : String
  type : Option DataType
  value : Value
deriving DecidableEq, Repr

/-- An entry that carries a value and declares nothing. -/
def Column.carrying (name : String) (value : Value) : Column := ⟨name, none, value⟩

/-- An entry that declares a type and carries no value. -/
def Column.declaring (name : String) (type : DataType) : Column := ⟨name, some type, .null⟩

/-- Whether two entries are equal, doubles being compared as numbers. -/
def Column.same (c d : Column) : Bool :=
  c.name == d.name && c.type == d.type && c.value.same d.value

end StreamControl
