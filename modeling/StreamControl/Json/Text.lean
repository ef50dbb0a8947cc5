import StreamControl.Json.Reader

/-!
# Texts between quotes

A text is written between double quotes.  The quote, the backslash and the characters below the
space are escaped, everything else stands for itself; a reader also takes `\/`, and `\u` with four
hexadecimal digits, of which two in a row stand for one character beyond the sixteen-bit range.
-/

namespace StreamControl.Json

/-! ## Writing -/

/-- The lower-case hexadecimal digit of a number below 16. -/
def hexDigit (n : UInt8) : UInt8 := if n < 10 then 0x30 + n else 0x57 + n

/-- One byte of a text between quotes.  Bytes beyond ASCII are parts of characters that stand for
themselves. -/
def escapedByte (b : UInt8) : Bytes :=
  match b with
  | Byte.quote => [Byte.backslash, Byte.quote]
  | Byte.backslash => [Byte.backslash, Byte.backslash]
  | Byte.backspace => [Byte.backslash, Byte.lowerB]
  | Byte.formFeed => [Byte.backslash, Byte.lowerF]
  | Byte.lineFeed => [Byte.backslash, Byte.lowerN]
  | Byte.carriageReturn => [Byte.backslash, Byte.lowerR]
  | Byte.tab => [Byte.backslash, Byte.lowerT]
  | b =>
    if b < Byte.space then
      [Byte.backslash, Byte.lowerU, 0x30, 0x30, hexDigit (b >>> 4), hexDigit (b &&& 0x0F)]
    else [b]

/-- A text between quotes. -/
def textBytes (s : String) : Bytes :=
  Byte.quote :: ((utf8 s).flatMap escapedByte ++ [Byte.quote])

namespace Reader

/-! ## Reading -/

/-- The character behind a backslash that a single letter stands for. -/
def shortEscape? : UInt8 → Option UInt8
  | Byte.quote => some Byte.quote
  | Byte.backslash => some Byte.backslash
  | Byte.slash => some Byte.slash
  | Byte.lowerB => some Byte.backspace
  | Byte.lowerF => some Byte.formFeed
  | Byte.lowerN => some Byte.lineFeed
  | Byte.lowerR => some Byte.carriageReturn
  | Byte.lowerT => some Byte.tab
  | _ => none

/-- Reads four hexadecimal digits.  With fewer than four bytes left the text has ended, whatever
those bytes are. -/
def hexUnit : Reader Nat
  | a :: b :: c :: d :: bytes =>
    match Byte.hexDigit? a, Byte.hexDigit? b, Byte.hexDigit? c, Byte.hexDigit? d with
    | some a, some b, some c, some d => .ok (((a * 16 + b) * 16 + c) * 16 + d, bytes)
    | _, _, _, _ => .error .malformed
  | _ => .error .ended

/-- Whether a sixteen-bit unit is the first half of a pair. -/
def isLeading (unit : Nat) : Bool := 0xD800 ≤ unit && unit < 0xDC00

/-- Whether a sixteen-bit unit is the second half of a pair. -/
def isTrailing (unit : Nat) : Bool := 0xDC00 ≤ unit && unit < 0xE000

/-- The character that a pair of sixteen-bit units stands for. -/
def pairedCode (leading trailing : Nat) : Nat :=
  (leading - 0xD800) * 0x400 + (trailing - 0xDC00) + 0x10000

/-- Reads the second half of a pair with the backslash and the letter in front of it. -/
def trailingUnit : Reader Nat
  | [] => .error .ended
  | Byte.backslash :: [] => .error .ended
  | Byte.backslash :: Byte.lowerU :: bytes => do
    let (unit, rest) ← hexUnit bytes
    if isTrailing unit then .ok (unit, rest) else .error .malformed
  | _ => .error .malformed

/-- Reads an escape behind `\u`: one unit, or the two halves of a pair. -/
def unicodeEscape : Reader Bytes := do
  let unit ← hexUnit
  -- a second half cannot come first
  if isTrailing unit then malformed
  else if isLeading unit then
    return utf8 (Char.ofNat (pairedCode unit (← trailingUnit))).toString
  else return utf8 (Char.ofNat unit).toString

/-- Reads an escape behind its backslash. -/
def escape : Reader Bytes
  | [] => .error .ended
  | Byte.lowerU :: bytes => unicodeEscape bytes
  | b :: bytes =>
    match shortEscape? b with
    | some c => .ok ([c], bytes)
    | none => .error .malformed

theorem hexUnit_shorter {bytes rest : Bytes} {unit : Nat} (h : hexUnit bytes = .ok (unit, rest)) :
    rest.length < bytes.length := by
  unfold hexUnit at h
  split at h
  · split at h
    · cases h; simp only [List.length_cons]; omega
    · cases h
  · cases h

theorem trailingUnit_shorter {bytes rest : Bytes} {unit : Nat}
    (h : trailingUnit bytes = .ok (unit, rest)) : rest.length < bytes.length := by
  unfold trailingUnit at h
  split at h
  · cases h
  · cases h
  · rename_i tail
    -- four digits are taken off, and nothing is put back
    cases hu : hexUnit tail with
    | error fault => simp [hu, bind, Except.bind] at h
    | ok r =>
      have hlt := @hexUnit_shorter tail r.2 r.1 hu
      simp only [hu, bind, Except.bind] at h
      split at h
      · cases h
        simp only [List.length_cons]
        omega
      · cases h
  · cases h

theorem unicodeEscape_shorter {bytes rest chars : Bytes}
    (h : unicodeEscape bytes = .ok (chars, rest)) : rest.length < bytes.length := by
  obtain ⟨unit, left, hu, h⟩ := bind_eq_ok.1 h
  have hlt := hexUnit_shorter hu
  split at h
  · cases h
  · split at h
    · obtain ⟨trailing, left', ht, h⟩ := bind_eq_ok.1 h
      have := trailingUnit_shorter ht
      obtain ⟨-, rfl⟩ := pure_eq_ok.1 h
      omega
    · obtain ⟨-, rfl⟩ := pure_eq_ok.1 h
      omega

/-- An escape takes up at least one byte. -/
theorem escape_shorter {bytes rest chars : Bytes} (h : escape bytes = .ok (chars, rest)) :
    rest.length < bytes.length := by
  unfold escape at h
  -- either the digits of a unit are taken, or a single letter
  split at h
  · cases h
  · have := unicodeEscape_shorter h
    simp only [List.length_cons]
    omega
  · split at h
    · cases h; simp
    · cases h

/-- Reads the bytes of a text behind its opening quote, up to and with the closing one. -/
def textContent : Reader Bytes
  | [] => .error .ended
  | b :: bytes =>
    if b = Byte.quote then .ok ([], bytes)
    else if b = Byte.backslash then
      match _h : escape bytes with
      | .error fault => .error fault
      | .ok (chars, rest) =>
        match textContent rest with
        | .error fault => .error fault
        | .ok (more, rest) => .ok (chars ++ more, rest)
    -- control characters have to be escaped
    else if b < Byte.space then .error .malformed
    else
      match textContent bytes with
      | .error fault => .error fault
      | .ok (more, rest) => .ok (b :: more, rest)
termination_by bytes => bytes.length
decreasing_by
  · have := escape_shorter _h; simp only [List.length_cons]; omega
  · simp

/-- Reads a text behind its opening quote.  Its bytes must be UTF-8. -/
def text : Reader String := do
  match (← textContent).text? with
  | some s => pure s
  | none => malformed

/-! ## Passing over a text -/

/-- Passes over an escape behind its backslash; a unit that stands for no character is let pass. -/
def passEscape : Reader Unit
  | [] => .error .ended
  | Byte.lowerU :: bytes => (do let _ ← hexUnit; pure ()) bytes
  | b :: bytes => if (shortEscape? b).isSome then .ok ((), bytes) else .error .malformed

theorem passEscape_shorter {bytes rest : Bytes} (h : passEscape bytes = .ok ((), rest)) :
    rest.length < bytes.length := by
  unfold passEscape at h
  split at h
  · cases h
  · obtain ⟨unit, left, hu, h⟩ := bind_eq_ok.1 h
    have hlt := hexUnit_shorter hu
    obtain ⟨-, rfl⟩ := pure_eq_ok.1 h
    simp only [List.length_cons]
    omega
  · split at h
    · cases h
      simp
    · cases h

/-- Passes over a text behind its opening quote: its form is checked, its characters are not. -/
def passText : Reader Unit
  | [] => .error .ended
  | b :: bytes =>
    if b = Byte.quote then .ok ((), bytes)
    else if b = Byte.backslash then
      match _h : passEscape bytes with
      | .error fault => .error fault
      | .ok ((), rest) => passText rest
    else if b < Byte.space then .error .malformed
    else passText bytes
termination_by bytes => bytes.length
decreasing_by
  · have := passEscape_shorter _h; simp only [List.length_cons]; omega
  · simp

end Reader

end StreamControl.Json
