import StreamControl.Store.Basic
import StreamControl.Wire.Message
import StreamControl.Wire.Reply

/-!
# Acknowledgment records

The document that is stored for a reply repeats the identifiers, the operation and the stream of the
message that it answers, so that a client can tell what it is about without knowing the path.
-/

namespace StreamControl

open Json

/-- A stored reply. -/
structure Acknowledgment where
  sessionId : String
  requestId : String
  operation : Option String
  streamName : Option String
  code : ReplyCode
  detail : Option String
  /-- When the reply was made, in milliseconds since 1970. -/
  timestamp : Int64
deriving DecidableEq, Repr

namespace Acknowledgment

/-- The record of a reply to a message. -/
def new (m : Message) (r : Reply) (now : Int64) : Acknowledgment :=
  { sessionId := m.sessionId, requestId := m.requestId, operation := m.operation,
    streamName := m.streamName, code := r.code, detail := r.detail, timestamp := now }

/-- The reply that a record holds. -/
def reply (a : Acknowledgment) : Reply := ⟨a.code, a.detail⟩

@[simp] theorem reply_new (m : Message) (r : Reply) (now : Int64) : (new m r now).reply = r := rfl

/-- The fields of a record. -/
inductive Field
  | sessionId
  | requestId
  | operation
  | streamName
  | code
  | detail
  | timestamp
deriving DecidableEq

/-- What each field holds. -/
abbrev Field.Content : Field → Type
  | .sessionId | .requestId => String
  | .operation | .streamName | .detail => Option String
  | .code => ReplyCode
  | .timestamp => Int64

/-- What is absent is left out. -/
def format : RecordFormat Acknowledgment where
  Field := Field
  Content := Field.Content
  name := "AckRecord"
  fields := [.sessionId, .requestId, .operation, .streamName, .code, .detail, .timestamp]
  mem_fields f := by cases f <;> decide
  key
    | .sessionId => "session_id"
    | .requestId => "request_id"
    | .operation => "operation"
    | .streamName => "streamName"
    | .code => "code"
    | .detail => "detail"
    | .timestamp => "timestamp"
  read
    | .sessionId, _ | .requestId, _ => Reader.string
    | .operation, _ | .streamName, _ | .detail, _ => Reader.optional Reader.string
    | .code, _ => ReplyCode.reader
    | .timestamp, _ => Reader.int64
  write
    | .sessionId, s | .requestId, s => some (textBytes s)
    | .operation, s | .streamName, s | .detail, s => s.map textBytes
    | .code, c => some c.bytes
    | .timestamp, t => some (integerBytes t.toInt)
  absent
    | .sessionId | .requestId => none
    | .operation | .streamName | .detail => some none
    | .code => none
    | .timestamp => none
  make content :=
    { sessionId := content .sessionId
      requestId := content .requestId
      operation := content .operation
      streamName := content .streamName
      code := content .code
      detail := content .detail
      timestamp := content .timestamp }
  get a
    | .sessionId => a.sessionId
    | .requestId => a.requestId
    | .operation => a.operation
    | .streamName => a.streamName
    | .code => a.code
    | .detail => a.detail
    | .timestamp => a.timestamp
  make_get _ := rfl

/-- The written form of a record. -/
def json (a : Acknowledgment) : Bytes := format.bytes a

/-- Reads a document that is one record. -/
def decode (bytes : Bytes) : Except Fault Acknowledgment := Reader.document format.reader bytes

/-- The path of the record of a message below a root. -/
def path (root : String) (m : Message) : String := Path.join root [m.sessionId, m.requestId]

end Acknowledgment

end StreamControl
