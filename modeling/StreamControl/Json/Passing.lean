import StreamControl.Json.Number
import StreamControl.Json.Text

/-!
# Passing over values

A value that is not kept is still read to its end.  There are two ways to do so.  Where a column
value should stand, an array or object is read as strictly as any other part of the document
(`passStrictly`).  A member that a record does not know is only checked for its form
(`passLeniently`): the range of its numbers, the characters of its texts and the depth of its
nesting do not matter.
-/

namespace StreamControl.Json

/-- How texts (behind their opening quote) and numerals are passed over. -/
structure Passing where
  text : Reader Unit
  number : Reader Unit

/-- Texts and numerals must be readable. -/
def Passing.strict : Passing := ⟨discard Reader.text, discard Reader.number⟩

/-- Texts and numerals must have the right form. -/
def Passing.lenient : Passing := ⟨Reader.passText, Reader.passNumber⟩

namespace Reader

/-- Whether a numeral can begin with this byte. -/
def startsNumber (b : UInt8) : Bool := b = Byte.minus || (Byte.digit? b).isSome

/-- Reads the key of a member, whose content `text` reads. -/
def key {α : Type} (text : Reader α) : Reader α := do
  match ← ahead with
  | none => ended
  | some b =>
    if b = Byte.quote then
      advance
      text
    else malformed

/-- Passes over one value; what lies behind an opening bracket or brace is left to `array` and
`object`. -/
def passOne (how : Passing) (array object : Reader Unit) : Reader Unit := do
  match ← ahead with
  | none => ended
  | some b =>
    if b = Byte.lowerN then word (utf8 "null")
    else if b = Byte.lowerT then word (utf8 "true")
    else if b = Byte.lowerF then word (utf8 "false")
    else if startsNumber b then how.number
    else if b = Byte.quote then
      advance
      how.text
    else if b = Byte.openBracket then
      advance
      array
    else if b = Byte.openBrace then
      advance
      object
    else malformed

/-- Passes over one value that may enter `depth` further levels of nesting. -/
def pass (how : Passing) : (depth : Nat) → Reader Unit
  -- at the bottom no array or object can be entered any more
  | 0 => passOne how malformed malformed
  | depth + 1 =>
    passOne how
      (members Byte.closeBracket (fun () => pass how depth) ())
      (members Byte.closeBrace
        (fun () => do
          discard (key how.text)
          colon
          pass how depth)
        ())

/-- Passes over a value that must be readable. -/
def passStrictly (depth : Nat) : Reader Unit := pass .strict depth

/-- Passes over a value of the right form.  Every level of nesting takes up a byte, so the number of
bytes left bounds the depth. -/
def passLeniently : Reader Unit := fun bytes => pass .lenient bytes.length bytes

end Reader

end StreamControl.Json
