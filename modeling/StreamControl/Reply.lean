/-!
# Replies

A reply answers a message with a code and, unless all went well, a detail for a human reader.  On
the wire a code is a number out of a fixed table.
-/

namespace StreamControl

/-- The outcome that a reply reports. -/
inductive ReplyCode
  | ok
  | parserError
  | streamAlreadyExists
  | streamDoesNotExist
  | generalError
  | columnAlreadyExists
  | columnDoesNotExist
  | streamIsNotUserDefined
  | streamOperationNotAllowed
deriving DecidableEq, Repr

namespace ReplyCode

/-- Every code. -/
def all : List ReplyCode :=
  [.ok, .parserError, .streamAlreadyExists, .streamDoesNotExist, .generalError,
    .columnAlreadyExists, .columnDoesNotExist, .streamIsNotUserDefined, .streamOperationNotAllowed]

/-- The number of a code on the wire. -/
def number : ReplyCode → Nat
  | .ok => 1
  | .parserError => 2
  | .streamAlreadyExists => 3
  | .streamDoesNotExist => 4
  | .generalError => 7
  | .columnAlreadyExists => 8
  | .columnDoesNotExist => 9
  | .streamIsNotUserDefined => 12
  | .streamOperationNotAllowed => 14

/-- The code with a given number. -/
def ofNumber? (n : Int) : Option ReplyCode := all.find? fun c => (c.number : Int) == n

/-- A code is found by its number. -/
theorem ofNumber?_number (c : ReplyCode) : ofNumber? c.number = some c := by cases c <;> decide

/-- The name of a code in a diagnostic. -/
def name : ReplyCode → String
  | .ok => "Ok"
  | .parserError => "KoParserError"
  | .streamAlreadyExists => "KoStreamAlreadyExists"
  | .streamDoesNotExist => "KoStreamDoesNotExist"
  | .generalError => "KoGeneralError"
  | .columnAlreadyExists => "KoColumnAlreadyExists"
  | .columnDoesNotExist => "KoColumnDoesNotExist"
  | .streamIsNotUserDefined => "KoStreamIsNotUserDefined"
  | .streamOperationNotAllowed => "KoStreamOperationNotAllowed"

/-- The name and the number of a code. -/
def text (c : ReplyCode) : String := c.name ++ "(" ++ toString c.number ++ ")"

end ReplyCode

/-- The answer to a message. -/
structure Reply where
  code : ReplyCode
  detail : Option String
deriving DecidableEq, Repr

/-- All went well. -/
def Reply.ok : Reply := ⟨.ok, none⟩

/-- A reply with a detail. -/
def Reply.because (code : ReplyCode) (detail : String) : Reply := ⟨code, some detail⟩

end StreamControl
