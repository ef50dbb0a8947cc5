import StreamControl.Json.Record
import StreamControl.Reply

/-!
# Replies on the wire

A code is its number, which must be in the table of codes.  A reply is a record.
-/

namespace StreamControl

open Json

namespace ReplyCode

/-- Reads a code. -/
def reader : Reader ReplyCode := do
  let n ← Reader.int32
  match ofNumber? n.toInt with
  | some c => pure c
  | none => Reader.mismatch (.unknownReplyCode n.toInt)

/-- The written form of a code. -/
def bytes (c : ReplyCode) : Bytes := integerBytes c.number

end ReplyCode

namespace Reply

/-- The fields of a reply. -/
inductive Field
  | code
  | detail
deriving DecidableEq

/-- What each field holds. -/
abbrev Field.Content : Field → Type
  | .code => ReplyCode
  | .detail => Option String

/-- A reply is written with its detail only if it has one. -/
def format : RecordFormat Reply where
  Field := Field
  Content := Field.Content
  name := "ActionReply"
  fields := [.code, .detail]
  mem_fields f := by cases f <;> decide
  key
    | .code => "code"
    | .detail => "detail"
  read
    | .code, _ => ReplyCode.reader
    | .detail, _ => Reader.optional Reader.string
  write
    | .code, c => some c.bytes
    | .detail, s => s.map textBytes
  absent
    | .code => none
    | .detail => some none
  make content := ⟨content .code, content .detail⟩
  get r
    | .code => r.code
    | .detail => r.detail
  make_get _ := rfl

/-- The written form of a reply. -/
def json (r : Reply) : Bytes := format.bytes r

/-- Reads a document that is one reply. -/
def decode (bytes : Bytes) : Except Fault Reply := Reader.document format.reader bytes

end Reply

end StreamControl
