import StreamControl.Proofs.Wire.Columns
import StreamControl.Proofs.Wire.ReadBack
import StreamControl.Wire.Schema

/-!
# Reading back stored documents

What a client finds in the store is a document, and it must tell what the reply told.  Records of
acknowledgments, replies and schemas hold no doubles, so each of them is read back from its document
without any condition (`documents_read_back`).
-/

namespace StreamControl

open Json

/-! ## Replies -/

namespace Reply

/-- Every field of a reply can be read back. -/
theorem legible (r : Reply) (depth : Nat) : format.Legible depth r where
  keys f := by cases f <;> rfl
  nodup := by decide
  written f bytes hwritten := by
    cases f with
    | code =>
      cases hwritten
      exact ReplyCode.reads_bytes _
    | detail => exact reads_optionalText hwritten
  -- a field that is left out reads as absent, and only such fields are left out
  absent f hwritten := by
    cases f with
    | code => contradiction
    | detail => exact congrArg some (Option.map_eq_none_iff.1 hwritten).symm

/-- A reply is read back from its document. -/
theorem decode_json_self (r : Reply) : decode r.json = .ok r :=
  RecordFormat.document_bytes (r.legible 126)

end Reply

/-! ## Schemas -/

/-- Every field of a declaration can be read back. -/
theorem Declaration.legible (d : Declaration) (depth : Nat) : format.Legible depth d where
  keys f := by cases f <;> rfl
  nodup := by decide
  written f bytes hwritten := by
    cases f with
    | name =>
      cases hwritten
      exact Reader.reads_string _
    | type =>
      cases hwritten
      exact DataType.reads_bytes _ depth
  absent f hwritten := by
    cases f with
    | name | type => contradiction

namespace Schema

/-- Every field of a schema can be read back. -/
theorem legible (s : Schema) (depth : Nat) : format.Legible (depth + 2) s where
  keys f := by cases f <;> rfl
  nodup := by decide
  written f bytes hwritten := by
    cases f with
    | name =>
      cases hwritten
      exact Reader.reads_string _
    | columns =>
      cases hwritten
      intro rest _
      exact RecordFormat.list_listBytes (fun d _ => d.legible depth) rest
    | userDefined =>
      cases hwritten
      exact Reader.reads_boolean _
  absent f hwritten := by
    cases f with
    | name | columns | userDefined => contradiction

/-- A schema is read back from its document. -/
theorem decode_json_self (s : Schema) : decode s.json = .ok s :=
  RecordFormat.document_bytes (s.legible 124)

end Schema

/-! ## Main result -/

/-- **Documents tell what was put into them.**  The record of an acknowledgment is read back from its
document, and written anew it is the same document.  The record of a reply to a message gives back
this reply.  Replies and schemas are read back from their documents as well. -/
theorem documents_read_back :
    (∀ a : Acknowledgment, Acknowledgment.decode a.json = .ok a ∧
      (Acknowledgment.decode a.json).map Acknowledgment.json = .ok a.json) ∧
      (∀ m r now, (Acknowledgment.decode (Acknowledgment.new m r now).json).map
        Acknowledgment.reply = .ok r) ∧
      (∀ r : Reply, Reply.decode r.json = .ok r) ∧
      ∀ s : Schema, Schema.decode s.json = .ok s := by
  refine ⟨?_, ?_, Reply.decode_json_self, Schema.decode_json_self⟩
  · intro a
    have hread := a.decode_json_self
    exact ⟨hread, by rw [hread, Except.map]⟩
  · intro m r now
    have hread := (Acknowledgment.new m r now).decode_json_self
    rw [hread, Except.map, Acknowledgment.reply_new]

-- a detail that is empty is not one that is absent
example : (Reply.because .parserError "").json ≠ (Reply.mk .parserError none).json := by decide

end StreamControl
