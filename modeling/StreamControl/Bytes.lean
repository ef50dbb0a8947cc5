/-!
# Byte strings

What travels on the wire and lies in the coordination store is a list of bytes.  A text has exactly
one byte form (`utf8`), and a list of bytes is a text only if it is valid UTF-8
(`Bytes.text?`); the two are inverse to each other.
-/

namespace StreamControl

/-- A sequence of bytes. -/
abbrev Bytes := List UInt8

/-- The UTF-8 form of a text. -/
def utf8 (s : String) : Bytes := s.toByteArray.data.toList

/-- The text with this UTF-8 form, if there is one. -/
def Bytes.text? (bs : Bytes) : Option String := String.fromUTF8? ⟨bs.toArray⟩

@[simp] theorem utf8_append (s t : String) : utf8 (s ++ t) = utf8 s ++ utf8 t := by
  simp [utf8, String.toByteArray_append]

/-- A text is read back from its bytes. -/
@[simp] theorem text?_utf8 (s : String) : (utf8 s).text? = some s := by
  obtain ⟨bytes, hvalid⟩ := s
  have h : (⟨bytes.data.toList.toArray⟩ : ByteArray) = bytes := by simp
  simp only [Bytes.text?, utf8, h, String.fromUTF8?]
  simp [hvalid, String.fromUTF8]

end StreamControl
