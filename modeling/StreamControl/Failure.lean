import StreamControl.Reply
import StreamControl.Schema

/-!
# Failures

The causes for which a message is not carried out, by how far they reach.  A `StreamError` says what
the streams refuse.  A `Failure` is what a validator or an action fails with: either a named
precondition with a code of its own, or an internal error, of which a client only learns the
outermost text.  A `DeliveryError` means that a reply could not be delivered; it is the only cause
that ends a batch, as an `Undelivered`.
-/

namespace StreamControl

/-- An internal error with the errors that caused it, from the outside in. -/
structure InternalError where
  message : String
  causes : List String
deriving DecidableEq, Repr

/-- All texts of an internal error, for the log alone. -/
def InternalError.chain (e : InternalError) : String := ": ".intercalate (e.message :: e.causes)

/-- What the streams refuse. -/
inductive StreamError
  | streamDoesNotExist (stream : String)
  | streamAlreadyExists (stream : String)
  | unknownColumn (stream column : String)
  | columnTypeMismatch (stream column : String) (expected : DataType) (found : String)
  | columnAlreadyExists (stream column : String)
  | missingColumnType (stream column : String)
  | internal (e : InternalError)
deriving DecidableEq, Repr

/-- The wording of what the streams refuse. -/
def StreamError.message : StreamError → String
  | .streamDoesNotExist stream => "stream " ++ stream ++ " does not exist"
  | .streamAlreadyExists stream => "stream " ++ stream ++ " already exists"
  | .unknownColumn stream column => "stream " ++ stream ++ " has no column " ++ column
  | .columnTypeMismatch stream column expected found =>
    "column " ++ column ++ " of stream " ++ stream ++ " expects " ++ expected.name ++
      ", found " ++ found
  | .columnAlreadyExists stream column =>
    "column " ++ column ++ " is declared more than once for stream " ++ stream
  | .missingColumnType stream column =>
    "column " ++ column ++ " of stream " ++ stream ++ " has no declared type"
  | .internal e => "internal error: " ++ e.message

/-- A stream refuses a payload for this violation of its schema. -/
def StreamError.ofViolation (stream : String) : Violation → StreamError
  | .unknownColumn column => .unknownColumn stream column
  | .typeMismatch column expected found => .columnTypeMismatch stream column expected found

/-- The code with which a client learns that the streams refused. -/
def StreamError.code : StreamError → ReplyCode
  | .streamDoesNotExist _ => .streamDoesNotExist
  | .streamAlreadyExists _ => .streamAlreadyExists
  | .unknownColumn _ _ => .columnDoesNotExist
  | .columnTypeMismatch _ _ _ _ => .columnDoesNotExist
  | .columnAlreadyExists _ _ => .columnAlreadyExists
  | .missingColumnType _ _ => .parserError
  | .internal _ => .generalError

/-- A precondition that a message violates. -/
structure Refusal where
  code : ReplyCode
  detail : String
deriving DecidableEq, Repr

/-- The reply to a violated precondition. -/
def Refusal.reply (f : Refusal) : Reply := .because f.code f.detail

/-- What validators and actions fail with. -/
inductive Failure
  | refused (f : Refusal)
  | internal (e : InternalError)
deriving DecidableEq, Repr

namespace Failure

/-- A violated precondition with this code and detail. -/
def invalid (code : ReplyCode) (detail : String) : Failure := .refused ⟨code, detail⟩

/-- The text that a client may see. -/
def message : Failure → String
  | .refused f => f.detail
  | .internal e => e.message

/-- What an action fails with when the streams refuse. -/
def ofStreamError : StreamError → Failure
  | .internal e => .internal e
  | e => invalid e.code e.message

/-- The reply to a failure.  Of an internal error it tells the outermost text only. -/
def reply : Failure → Reply
  | .refused f => f.reply
  | .internal e => .because .generalError e.message

end Failure

/-- Why a reply was not delivered. -/
inductive DeliveryError
  /-- The reply could not be written as a document. -/
  | encode (cause : String)
  /-- The store refused the node. -/
  | store (path cause : String)
deriving DecidableEq, Repr

/-- The wording of a failed delivery. -/
def DeliveryError.message : DeliveryError → String
  | .encode cause => "failed to encode acknowledgment: " ++ cause
  | .store path _ => "coordination store write failed at " ++ path

/-- A reply was not delivered, and the batch ends there. -/
structure Undelivered where
  processor : String
  sessionId : String
  requestId : String
  source : DeliveryError
deriving DecidableEq, Repr

/-- The wording of an ended batch. -/
def Undelivered.message (e : Undelivered) : String :=
  "processor " ++ e.processor ++ ": acknowledgment for request " ++ e.requestId ++
    " in session " ++ e.sessionId ++ " was not delivered"

end StreamControl
