import StreamControl.Column

/-!
# Schemas

A schema names a stream, declares its columns in order and says whether a user defined the stream or
the engine owns it.  `Schema.violations` lists what is wrong with a payload: one entry for each
column that is not declared or whose value the declared type does not accept, in the order of the
payload.
-/

namespace StreamControl

/-- The declaration of a column. -/
structure Declaration where
  name : String
  type : DataType
deriving DecidableEq, Repr

/-- The definition of a stream. -/
structure Schema where
  name : String
  columns : List Declaration
  userDefined : Bool
deriving DecidableEq, Repr

/-- One way in which a payload disagrees with a schema. -/
inductive Violation
  /-- The payload names a column that is not declared. -/
  | unknownColumn (column : String)
  /-- The payload carries a value that the declared type does not accept. -/
  | typeMismatch (column : String) (expected : DataType) (found : String)
deriving DecidableEq, Repr

/-- The wording of a violation. -/
def Violation.message : Violation → String
  | .unknownColumn column => "column " ++ column ++ " does not exist"
  | .typeMismatch column expected found =>
    "column " ++ column ++ " expects " ++ expected.name ++ ", found " ++ found

/-- What a refused value is called.  An integer column refuses an integer only for its size. -/
def refusedKind : DataType → Value → String
  | .integer, .integer _ => "64-bit integer"
  | _, value => value.kind

namespace Schema

/-- The schema of a stream that a user defines. -/
def user (name : String) (columns : List Declaration) : Schema := ⟨name, columns, true⟩

/-- The schema of a stream that the engine owns. -/
def internal (name : String) (columns : List Declaration) : Schema := ⟨name, columns, false⟩

/-- The declaration of a column, the first if there are several; case counts. -/
def column? (s : Schema) (name : String) : Option Declaration := s.columns.find? (·.name == name)

/-- What is wrong with one entry of a payload. -/
def violation? (s : Schema) (c : Column) : Option Violation :=
  match s.column? c.name with
  | none => some (.unknownColumn c.name)
  | some d =>
    if d.type.accepts c.value then none
    else some (.typeMismatch c.name d.type (refusedKind d.type c.value))

/-- What is wrong with a payload, in its order.  Columns that the payload leaves out are null. -/
def violations (s : Schema) (payload : List Column) : List Violation :=
  payload.filterMap s.violation?

/-- Whether a payload fits the schema. -/
def fits (s : Schema) (payload : List Column) : Bool := (s.violations payload).isEmpty

end Schema

end StreamControl
