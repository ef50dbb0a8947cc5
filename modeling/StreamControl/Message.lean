import StreamControl.Column

/-!
# Messages

A control message addresses one stream with one operation and a payload.  The session and the
request identify it to the client that waits for the reply.
-/

namespace StreamControl

/-- A control message. -/
structure Message where
  /-- The operation token as sent. -/
  operation : Option String
  /-- The name of the stream as sent. -/
  streamName : Option String
  sessionId : String
  requestId : String
  /-- The request as the client typed it. -/
  request : Option String
  /-- When the client made the message, in milliseconds since 1970. -/
  timestamp : Option Int64
  columns : List Column
deriving DecidableEq, Repr

namespace Message

/-- The operation token; an empty one counts as absent. -/
def operation? (m : Message) : Option String := m.operation.filter (· ≠ "")

/-- The name of the stream; an empty one counts as absent. -/
def stream? (m : Message) : Option String := m.streamName.filter (· ≠ "")

/-- The operation token, or the empty text in its absence. -/
def operationOrEmpty (m : Message) : String := m.operation?.getD ""

/-- A message for an operation on a stream, without identifiers and payload. -/
def addressed (operation stream : String) : Message :=
  { operation := some operation, streamName := some stream, sessionId := "", requestId := "",
    request := none, timestamp := none, columns := [] }

/-- Sets the identifiers. -/
def identified (m : Message) (sessionId requestId : String) : Message :=
  { m with sessionId, requestId }

/-- Sets the payload. -/
def carrying (m : Message) (columns : List Column) : Message := { m with columns }

/-- Whether two messages are equal, doubles being compared as numbers. -/
def same (m n : Message) : Bool :=
  { m with columns := [] } == { n with columns := [] } &&
    m.columns.length == n.columns.length && (m.columns.zip n.columns).all fun (c, d) => c.same d

end Message

end StreamControl
