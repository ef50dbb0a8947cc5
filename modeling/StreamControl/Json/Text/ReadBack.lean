import StreamControl.Json.Text

/-!
# Reading a written text

What is written between quotes is read back: `textContent_flatMap` says so for the bytes of a text
and `text_textBytes` for the text itself, whatever comes after the closing quote.
-/

namespace StreamControl.Json.Reader

/-! ## Escapes -/

/-- A control character is read back from its four digits. -/
theorem hexUnit_control {b : UInt8} (control : b < Byte.space) (rest : Bytes) :
    hexUnit (0x30 :: 0x30 :: hexDigit (b >>> 4) :: hexDigit (b &&& 0x0F) :: rest) =
      .ok (b.toNat, rest) := by
  have digits : ∀ n < 32, Byte.hexDigit? (hexDigit (UInt8.ofNat n >>> 4)) = some (n / 16) ∧
      Byte.hexDigit? (hexDigit (UInt8.ofNat n &&& 0x0F)) = some (n % 16) := by decide
  have bound : b.toNat < 32 := control
  obtain ⟨high, low⟩ := digits b.toNat bound
  rw [UInt8.ofNat_toNat] at high low
  have zero : Byte.hexDigit? 0x30 = some 0 := rfl
  simp only [hexUnit, zero, high, low]
  congr 2
  omega

/-- The text of one control character is one byte. -/
theorem utf8_control {b : UInt8} (control : b < Byte.space) :
    utf8 (Char.ofNat b.toNat).toString = [b] := by
  have texts : ∀ n < 32, utf8 (Char.ofNat n).toString = [UInt8.ofNat n] := by decide +kernel
  have bound : b.toNat < 32 := control
  rw [texts b.toNat bound, UInt8.ofNat_toNat]

/-- The escape of a control character stands for that character. -/
theorem unicodeEscape_control {b : UInt8} (control : b < Byte.space) (rest : Bytes) :
    unicodeEscape (0x30 :: 0x30 :: hexDigit (b >>> 4) :: hexDigit (b &&& 0x0F) :: rest) =
      .ok ([b], rest) := by
  have bound : b.toNat < 32 := control
  have single : isTrailing b.toNat = false ∧ isLeading b.toNat = false := by
    simp only [isTrailing, isLeading, Bool.and_eq_false_iff, decide_eq_false_iff_not]
    omega
  unfold unicodeEscape
  rw [bind_apply_of_ok (hexUnit_control control rest)]
  simp only [single.1, single.2, Bool.false_eq_true, if_false]
  rw [utf8_control control]
  rfl

/-! ## Contents -/

/-- A text goes on behind an escape for one byte. -/
theorem textContent_escape {c : UInt8} {bytes rest : Bytes}
    (h : escape bytes = .ok ([c], rest)) :
    textContent (Byte.backslash :: bytes) =
      (textContent rest).map fun r => (c :: r.1, r.2) := by
  rw [textContent]
  have apart : ¬ Byte.backslash = Byte.quote := by decide
  simp only [apart, if_false, if_true]
  split
  · rename_i failed
    rw [h] at failed
    cases failed
  · rename_i read
    rw [h] at read
    cases read
    cases textContent rest <;> rfl

/-- A text goes on behind a byte that stands for itself. -/
theorem textContent_cons {b : UInt8} (quote : b ≠ Byte.quote) (backslash : b ≠ Byte.backslash)
    (control : ¬ b < Byte.space) (bytes : Bytes) :
    textContent (b :: bytes) = (textContent bytes).map fun r => (b :: r.1, r.2) := by
  rw [textContent]
  simp only [quote, backslash, control, if_false]
  cases textContent bytes <;> rfl

/-- A byte of a text is read back from its written form. -/
theorem textContent_escapedByte (b : UInt8) (bytes : Bytes) :
    textContent (escapedByte b ++ bytes) =
      (textContent bytes).map fun r => (b :: r.1, r.2) := by
  unfold escapedByte
  split
  case h_8 quote backslash _ _ _ _ _ =>
    split
    · rename_i control
      exact textContent_escape (unicodeEscape_control control bytes)
    · rename_i control
      exact textContent_cons quote backslash control bytes
  all_goals exact textContent_escape rfl

/-- The content of a text is read back from its written form. -/
theorem textContent_flatMap (content bytes : Bytes) :
    textContent (content.flatMap escapedByte ++ Byte.quote :: bytes) = .ok (content, bytes) := by
  induction content with
  | nil =>
    rw [List.flatMap_nil, List.nil_append, textContent]
    rfl
  | cons b content ih =>
    rw [List.flatMap_cons, List.append_assoc, textContent_escapedByte, ih]
    rfl

/-- A text is read back from its written form, whatever comes after. -/
theorem text_textBytes (s : String) (bytes : Bytes) :
    text ((textBytes s).tail ++ bytes) = .ok (s, bytes) := by
  unfold text
  have content : textContent ((textBytes s).tail ++ bytes) = .ok (utf8 s, bytes) := by
    simpa [textBytes] using textContent_flatMap (utf8 s) bytes
  rw [bind_apply_of_ok content, text?_utf8]
  rfl

end StreamControl.Json.Reader
