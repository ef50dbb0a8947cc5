import StreamControl.Proofs.Json.Records
import StreamControl.Store.Acknowledgment

/-!
# Reading back what is stored

A reply code is read back from its number, and an acknowledgment record from the document that is
stored for it.
-/

namespace StreamControl

open Json

/-- A reply code is read back from its number. -/
theorem ReplyCode.reads_bytes (c : ReplyCode) : Reads ReplyCode.reader c.bytes c := by
  intro rest hrest
  have hnumber : (Int32.ofInt c.number).toInt = c.number := by cases c <;> rfl
  have hread := Reader.reads_int32 (Int32.ofInt c.number) rest hrest
  rw [hnumber] at hread
  unfold reader bytes
  rw [Reader.bind_apply_of_ok hread, hnumber, ofNumber?_number]
  rfl

/-- A text that may be absent is read back where it is present. -/
theorem reads_optionalText {text : Option String} {bytes : Bytes}
    (h : text.map textBytes = some bytes) : Reads (Reader.optional Reader.string) bytes text := by
  obtain ⟨s, rfl, rfl⟩ := Option.map_eq_some_iff.1 h
  exact Reader.reads_optional (Reader.reads_string s) rfl (by decide)

namespace Acknowledgment

/-- Every field of an acknowledgment can be read back. -/
theorem legible (a : Acknowledgment) (depth : Nat) : format.Legible depth a where
  keys f := by cases f <;> rfl
  nodup := by decide
  written f bytes hwritten := by
    cases f with
    | sessionId | requestId =>
      cases hwritten
      exact Reader.reads_string _
    | operation | streamName | detail => exact reads_optionalText hwritten
    | code =>
      cases hwritten
      exact ReplyCode.reads_bytes _
    | timestamp =>
      cases hwritten
      exact Reader.reads_int64 _
  absent f hwritten := by
    cases f with
    | sessionId | requestId | code | timestamp => contradiction
    -- only the optional fields are ever left out
    | operation | streamName | detail => exact congrArg some (Option.map_eq_none_iff.1 hwritten).symm

/-- An acknowledgment is read back from its document. -/
theorem decode_json_self (a : Acknowledgment) : decode a.json = .ok a :=
  RecordFormat.document_bytes (a.legible 126)

end Acknowledgment

end StreamControl
