import StreamControl.Schema
import StreamControl.Wire.Column

/-!
# Schemas on the wire

A schema and each of its column declarations are records in which no field may be missing.
-/

namespace StreamControl

open Json

namespace Declaration

/-- The fields of a declaration. -/
inductive Field
  | name
  | type
deriving DecidableEq

/-- What each field holds. -/
abbrev Field.Content : Field → Type
  | .name => String
  | .type => DataType

/-- Both fields are required and always written. -/
def format : RecordFormat Declaration where
  Field := Field
  Content := Field.Content
  name := "ColumnDef"
  fields := [.name, .type]
  mem_fields f := by cases f <;> decide
  key
    | .name => "name"
    | .type => "column_type"
  read
    | .name, _ => Reader.string
    | .type, depth => DataType.reader depth
  write
    | .name, s => some (textBytes s)
    | .type, t => some t.bytes
  absent
    | .name => none
    | .type => none
  make content := ⟨content .name, content .type⟩
  get d
    | .name => d.name
    | .type => d.type
  make_get _ := rfl

end Declaration

namespace Schema

/-- The fields of a schema. -/
inductive Field
  | name
  | columns
  | userDefined
deriving DecidableEq

/-- What each field holds. -/
abbrev Field.Content : Field → Type
  | .name => String
  | .columns => List Declaration
  | .userDefined => Bool

/-- All fields are required and always written. -/
def format : RecordFormat Schema where
  Field := Field
  Content := Field.Content
  name := "StreamSchema"
  fields := [.name, .columns, .userDefined]
  mem_fields f := by cases f <;> decide
  key
    | .name => "name"
    | .columns => "columns"
    | .userDefined => "user_defined"
  read
    | .name, _ => Reader.string
    | .columns, depth => Reader.list Declaration.format.reader depth
    | .userDefined, _ => Reader.boolean
  write
    | .name, s => some (textBytes s)
    | .columns, ds => some (listBytes (ds.map Declaration.format.bytes))
    | .userDefined, b => some (booleanBytes b)
  absent
    | .name => none
    | .columns => none
    | .userDefined => none
  make content := ⟨content .name, content .columns, content .userDefined⟩
  get s
    | .name => s.name
    | .columns => s.columns
    | .userDefined => s.userDefined
  make_get _ := rfl

/-- The written form of a schema. -/
def json (s : Schema) : Bytes := format.bytes s

/-- Reads a document that is one schema. -/
def decode (bytes : Bytes) : Except Fault Schema := Reader.document format.reader bytes

end Schema

end StreamControl
