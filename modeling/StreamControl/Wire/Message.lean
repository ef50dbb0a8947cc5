import StreamControl.Message
import StreamControl.Wire.Column

/-!
# Messages on the wire

A message is a record in which every field may be missing: the identifiers are then empty, the list
of columns has no entries, and the rest is absent.  A batch is an array of messages.
-/

namespace StreamControl

open Json

namespace Message

/-- The fields of a message. -/
inductive Field
  | operation
  | streamName
  | sessionId
  | requestId
  | request
  | timestamp
  | columns
deriving DecidableEq

/-- What each field holds. -/
abbrev Field.Content : Field → Type
  | .operation | .streamName | .request => Option String
  | .sessionId | .requestId => String
  | .timestamp => Option Int64
  | .columns => List Column

/-- What is absent is left out; the identifiers and the columns are always written. -/
def format : RecordFormat Message where
  Field := Field
  Content := Field.Content
  name := "StreamingMessage"
  fields := [.operation, .streamName, .sessionId, .requestId, .request, .timestamp, .columns]
  mem_fields f := by cases f <;> decide
  key
    | .operation => "operation"
    | .streamName => "streamName"
    | .sessionId => "session_id"
    | .requestId => "request_id"
    | .request => "request"
    | .timestamp => "timestamp"
    | .columns => "columns"
  read
    | .operation, _ | .streamName, _ | .request, _ => Reader.optional Reader.string
    | .sessionId, _ | .requestId, _ => Reader.string
    | .timestamp, _ => Reader.optional Reader.int64
    | .columns, depth => Column.listReader depth
  write
    | .operation, s | .streamName, s | .request, s => s.map textBytes
    | .sessionId, s | .requestId, s => some (textBytes s)
    | .timestamp, t => t.map fun t => integerBytes t.toInt
    | .columns, cs => some (Column.listJson cs)
  absent
    | .operation | .streamName | .request => some none
    | .sessionId | .requestId => some ""
    | .timestamp => some none
    | .columns => some []
  make content :=
    { operation := content .operation
      streamName := content .streamName
      sessionId := content .sessionId
      requestId := content .requestId
      request := content .request
      timestamp := content .timestamp
      columns := content .columns }
  get m
    | .operation => m.operation
    | .streamName => m.streamName
    | .sessionId => m.sessionId
    | .requestId => m.requestId
    | .request => m.request
    | .timestamp => m.timestamp
    | .columns => m.columns
  make_get _ := rfl

/-- The written form of a message. -/
def json (m : Message) : Bytes := format.bytes m

/-- Reads a document that is one message. -/
def decode (bytes : Bytes) : Except Fault Message := Reader.document format.reader bytes

/-- The written form of a batch. -/
def batchJson (batch : List Message) : Bytes := listBytes (batch.map json)

/-- Reads a document that is a batch. -/
def decodeBatch (bytes : Bytes) : Except Fault (List Message) :=
  Reader.document (Reader.list format.reader) bytes

end Message

end StreamControl
