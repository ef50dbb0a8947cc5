import StreamControl.Json.Scalar
import StreamControl.Json.Text.ReadBack

/-!
# Reading written values

`Reads` says that a reader takes exactly the written form of a value off the front of a document,
whatever may come after a value.  It is shown here for integers, booleans, texts and optional values;
for records it follows from their fields.
-/

namespace StreamControl.Json

/-- What may come after a value: the end of the document, a comma, or a closing byte. -/
def Follows (rest : Bytes) : Prop :=
  ∀ b ∈ rest.head?, b = Byte.comma ∨ b = Byte.closeBracket ∨ b = Byte.closeBrace

/-- A reader takes these bytes off the front for that value. -/
def Reads {α : Type} (read : Reader α) (bytes : Bytes) (a : α) : Prop :=
  ∀ rest, Follows rest → read (bytes ++ rest) = .ok (a, rest)

theorem follows_nil : Follows [] := by
  rintro _ ⟨⟩

theorem follows_comma (rest : Bytes) : Follows (Byte.comma :: rest) := by
  rintro _ ⟨⟩
  exact .inl rfl

theorem follows_closeBrace (rest : Bytes) : Follows (Byte.closeBrace :: rest) := by
  rintro _ ⟨⟩
  exact .inr (.inr rfl)

theorem follows_closeBracket (rest : Bytes) : Follows (Byte.closeBracket :: rest) := by
  rintro _ ⟨⟩
  exact .inr (.inl rfl)

/-! ## Digits -/

/-- The bytes of ASCII characters. -/
def asciiBytes (cs : List Char) : Bytes := cs.map fun c => UInt8.ofNat c.toNat

theorem asciiBytes_cons (c : Char) (cs : List Char) :
    asciiBytes (c :: cs) = UInt8.ofNat c.toNat :: asciiBytes cs := rfl

theorem isDigit_iff {c : Char} : c.isDigit = true ↔ 48 ≤ c.toNat ∧ c.toNat ≤ 57 := by
  rw [Char.isDigit, Bool.and_eq_true, decide_eq_true_eq, decide_eq_true_eq]
  rfl

/-- Digits are single bytes. -/
theorem utf8_digits {cs : List Char} (hdigits : ∀ c ∈ cs, c.isDigit = true) :
    utf8 (String.ofList cs) = asciiBytes cs := by
  -- digits lie below 128, where a character is its own byte
  have hbytes : ∀ c ∈ cs, String.utf8EncodeChar c = [UInt8.ofNat c.toNat] := by
    intro c hc
    have hrange := isDigit_iff.1 (hdigits c hc)
    have hsize : c.utf8Size = 1 := Char.utf8Size_eq_one_iff.2 (by
      change c.toNat ≤ 127
      omega)
    rw [String.utf8EncodeChar_eq_singleton hsize]
    rfl
  have hall : cs.flatMap String.utf8EncodeChar = asciiBytes cs := by
    rw [asciiBytes, List.map_eq_flatMap, List.flatMap_def, List.flatMap_def,
      List.map_congr_left hbytes]
  rw [utf8, String.toByteArray_ofList, List.utf8Encode, List.data_toByteArray, hall]

theorem digit?_of_isDigit {c : Char} (h : c.isDigit = true) :
    Byte.digit? (UInt8.ofNat c.toNat) = some (c.toNat - 48) := by
  have hall : ∀ n < 58, 48 ≤ n → Byte.digit? (UInt8.ofNat n) = some (n - 48) := by decide
  obtain ⟨hleast, hgreatest⟩ := isDigit_iff.1 h
  exact hall c.toNat (Nat.lt_succ_of_le hgreatest) hleast

/-- What stands in front is no digit and belongs to no numeral. -/
def Detached (rest : Bytes) : Prop :=
  ∀ b ∈ rest.head?, Byte.digit? b = none ∧ b ≠ Byte.point ∧ b ≠ Byte.lowerE ∧ b ≠ Byte.upperE

theorem Follows.apart {rest : Bytes} (h : Follows rest) : Detached rest := by
  intro b hb
  rcases h b hb with rfl | rfl | rfl <;> decide

/-- Characters that are all digits. -/
def Digits (cs : List Char) : Prop := ∀ c ∈ cs, c.isDigit = true

theorem digits_toDigits (n : Nat) : Digits (Nat.toDigits 10 n) := by
  intro c hc
  exact Nat.isDigit_of_mem_toDigits (by decide) (by decide) hc

theorem Digits.tail {c : Char} {cs : List Char} (h : Digits (c :: cs)) : Digits cs :=
  fun d hd => h d (List.mem_cons_of_mem _ hd)

/-- No digit stands in front. -/
def Apart (rest : Bytes) : Prop := ∀ b ∈ rest.head?, Byte.digit? b = none

theorem apart_cons {b : UInt8} (h : Byte.digit? b = none) (rest : Bytes) : Apart (b :: rest) := by
  rintro _ ⟨⟩
  exact h

theorem Detached.noDigit {rest : Bytes} (h : Detached rest) : Apart rest :=
  fun b hb => (h b hb).1

theorem Follows.noDigit {rest : Bytes} (h : Follows rest) : Apart rest := h.apart.noDigit

namespace Numeral

/-- Digits only make a number greater. -/
theorem le_ofDigitChars (m : Nat) (cs : List Char) : m ≤ Nat.ofDigitChars 10 cs m := by
  induction cs generalizing m with
  | nil => exact Nat.le_refl m
  | cons c cs ih =>
    rw [Nat.ofDigitChars_cons]
    exact Nat.le_trans (by omega) (ih _)

theorem countDigits_of_apart {rest : Bytes} (h : Apart rest) :
    countDigits rest = (0, rest) := by
  rcases rest with _ | ⟨b, rest⟩
  · rfl
  · rw [countDigits, h b rfl]
    rfl

/-- Digits that fit are all gathered. -/
theorem gather_asciiBytes {cs : List Char} (hdigits : Digits cs) {m : Nat}
    (hfits : Nat.ofDigitChars 10 cs m ≤ maxWord) {rest : Bytes} (hrest : Apart rest) :
    gather m (asciiBytes cs ++ rest) = (Nat.ofDigitChars 10 cs m, cs.length, rest) := by
  induction cs generalizing m with
  | nil =>
    rcases rest with _ | ⟨b, rest⟩
    · rfl
    · rw [asciiBytes, List.map_nil, List.nil_append, gather, hrest b rfl]
      rfl
  | cons c cs ih =>
    have hdigit := digit?_of_isDigit (hdigits c List.mem_cons_self)
    have hvalue : Nat.ofDigitChars 10 (c :: cs) m =
        Nat.ofDigitChars 10 cs (m * 10 + (c.toNat - 48)) := by
      rw [Nat.ofDigitChars_cons, Nat.mul_comm]
      rfl
    rw [hvalue] at hfits ⊢
    -- the number so far is no greater than the whole one, so this digit still fits
    have hstep : m * 10 + (c.toNat - 48) ≤ maxWord :=
      Nat.le_trans (le_ofDigitChars _ cs) hfits
    have htail := ih hdigits.tail hfits
    rw [asciiBytes_cons, List.cons_append, gather, hdigit]
    dsimp only
    rw [if_pos hstep, htail]
    rfl

end Numeral

/-- The digits of a positive number do not begin with a zero. -/
theorem head_toDigits {n : Nat} (hpos : 0 < n) :
    ∃ c cs, Nat.toDigits 10 n = c :: cs ∧ c ≠ '0' := by
  induction n using Nat.strongRecOn with
  | _ n ih =>
    -- the leading digit is found by dividing by ten until one digit is left
    by_cases hsmall : n < 10
    · refine ⟨n.digitChar, [], Nat.toDigits_of_lt_base hsmall, ?_⟩
      have hall : ∀ d < 10, 0 < d → d.digitChar ≠ '0' := by decide
      exact hall n hsmall hpos
    · have hlarge : 10 ≤ n := by omega
      obtain ⟨c, cs, hdigits, hc⟩ := ih (n / 10) (by omega) (by omega)
      refine ⟨c, cs ++ [(n % 10).digitChar], ?_, hc⟩
      rw [Nat.toDigits_of_base_le (by decide) hlarge, hdigits]
      rfl

/-! ## Integers -/

namespace Reader

open Numeral

/-- A numeral ends where no digit, point or exponent follows.  It is a double if some of its digits
did not fit. -/
theorem integerTail_of_detached {rest : Bytes} (h : Detached rest) (negative : Bool)
    (m dropped : Nat) :
    integerTail negative m dropped rest =
      if dropped = 0 then .ok (ofInteger negative m, rest) else real negative m dropped rest := by
  rcases rest with _ | ⟨b, rest⟩
  · rfl
  · obtain ⟨-, hpoint, hlower, hupper⟩ := h b rfl
    unfold integerTail
    split <;> simp_all

theorem integerTail_of_follows {rest : Bytes} (h : Follows rest) (negative : Bool)
    (m dropped : Nat) :
    integerTail negative m dropped rest =
      if dropped = 0 then .ok (ofInteger negative m, rest) else real negative m dropped rest :=
  integerTail_of_detached h.apart negative m dropped

/-- A double ends where no exponent follows. -/
theorem realTail_of_detached {rest : Bytes} (h : Detached rest) (negative : Bool) (m : Nat)
    (e : Int) : realTail negative m e rest = real negative m e rest := by
  rcases rest with _ | ⟨b, rest⟩
  · rfl
  · obtain ⟨-, -, hlower, hupper⟩ := h b rfl
    unfold realTail
    split <;> simp_all

/-- Behind a digit other than zero, all digits are gathered. -/
theorem unsigned_of_digit {b : UInt8} {d : Nat} (hdigit : Byte.digit? b = some d) (hpos : d ≠ 0)
    (negative : Bool) (bytes : Bytes) :
    unsigned negative (b :: bytes) =
      let (m, _, left) := gather d bytes
      let (dropped, left) := countDigits left
      integerTail negative m dropped left := by
  rw [unsigned, hdigit]
  rcases d with _ | d
  · contradiction
  · rfl

/-- A numeral that begins with a digit has no sign. -/
theorem number_of_digit {b : UInt8} (hdigit : (Byte.digit? b).isSome = true) (bytes : Bytes) :
    number (b :: bytes) = unsigned false (b :: bytes) := by
  have hminus : b ≠ Byte.minus := by
    rintro rfl
    exact absurd hdigit (by decide)
  unfold number
  split
  · rename_i heq
    exact absurd (List.cons.inj heq).1 hminus
  · rfl

/-- A zero in front stands alone. -/
theorem unsigned_zero {rest : Bytes} (hrest : Apart rest) (negative : Bool) :
    unsigned negative (asciiBytes ['0'] ++ rest) = integerTail negative 0 0 rest := by
  have hnone : rest.head?.bind Byte.digit? = none := Option.bind_eq_none_iff.2 hrest
  have hzero : Byte.digit? (UInt8.ofNat ('0').toNat) = some 0 := rfl
  rw [asciiBytes_cons, List.cons_append, unsigned, hzero]
  dsimp only
  rw [show asciiBytes [] ++ rest = rest from rfl, hnone]
  rfl

/-- The value of a digit other than zero. -/
theorem digit_ne_zero {c : Char} (hdigit : c.isDigit = true) (hc : c ≠ '0') : c.toNat - 48 ≠ 0 := by
  have hrange := isDigit_iff.1 hdigit
  have hnotzero : c.toNat ≠ 48 := fun h => hc (Char.toNat_inj.1 h)
  omega

theorem ofDigitChars_head (c : Char) (cs : List Char) :
    Nat.ofDigitChars 10 (c :: cs) 0 = Nat.ofDigitChars 10 cs (c.toNat - 48) := by
  rw [Nat.ofDigitChars_cons, Nat.mul_zero, Nat.zero_add]
  rfl

/-- Digits that fit 64 bits and do not begin with a zero are all gathered. -/
theorem unsigned_digits {c : Char} {cs : List Char} (hdigits : Digits (c :: cs)) (hc : c ≠ '0')
    (hfits : Nat.ofDigitChars 10 (c :: cs) 0 ≤ maxWord) {rest : Bytes} (hrest : Apart rest)
    (negative : Bool) :
    unsigned negative (asciiBytes (c :: cs) ++ rest) =
      integerTail negative (Nat.ofDigitChars 10 (c :: cs) 0) 0 rest := by
  have hhead := hdigits c List.mem_cons_self
  rw [ofDigitChars_head] at hfits ⊢
  rw [asciiBytes_cons, List.cons_append,
    unsigned_of_digit (digit?_of_isDigit hhead) (digit_ne_zero hhead hc),
    gather_asciiBytes hdigits.tail hfits hrest]
  dsimp only
  rw [countDigits_of_apart hrest]

/-- The digits of a number that fits 64 bits are read back. -/
theorem unsigned_toDigits {n : Nat} (hfits : n ≤ maxWord) (negative : Bool) {rest : Bytes}
    (hrest : Follows rest) :
    unsigned negative (asciiBytes (Nat.toDigits 10 n) ++ rest) =
      .ok (ofInteger negative n, rest) := by
  rcases Nat.eq_zero_or_pos n with rfl | hpos
  · rw [Nat.toDigits_zero, unsigned_zero hrest.noDigit]
    exact integerTail_of_follows hrest negative 0 0
  · have hdigits := digits_toDigits n
    have hvalue := Nat.ofDigitChars_ten_toDigits (n := n)
    obtain ⟨c, cs, hcs, hc⟩ := head_toDigits hpos
    rw [hcs] at hdigits hvalue ⊢
    rw [unsigned_digits hdigits hc (hvalue ▸ hfits) hrest.noDigit, hvalue]
    exact integerTail_of_follows hrest negative n 0

end Reader

theorem utf8_toString (n : Nat) : utf8 (toString n) = asciiBytes (Nat.toDigits 10 n) := by
  rw [Nat.toString_eq_ofList_toDigits]
  exact utf8_digits (digits_toDigits n)

theorem integerBytes_ofNat (n : Nat) :
    integerBytes (.ofNat n) = asciiBytes (Nat.toDigits 10 n) := utf8_toString n

theorem integerBytes_negSucc (n : Nat) :
    integerBytes (.negSucc n) = Byte.minus :: asciiBytes (Nat.toDigits 10 (n + 1)) := by
  have hsign : integerBytes (.negSucc n) = utf8 ("-" ++ toString (n + 1)) := rfl
  rw [hsign, utf8_append, utf8_toString]
  rfl

/-- Digits begin with a digit. -/
theorem asciiBytes_toDigits (n : Nat) :
    ∃ b bytes, asciiBytes (Nat.toDigits 10 n) = b :: bytes ∧ (Byte.digit? b).isSome = true := by
  rcases hcs : Nat.toDigits 10 n with _ | ⟨c, cs⟩
  · exact absurd hcs Nat.toDigits_ne_nil
  · have hdigit := digit?_of_isDigit (digits_toDigits n c (by simp [hcs]))
    exact ⟨_, _, asciiBytes_cons c cs, by rw [hdigit]; rfl⟩

namespace Reader

open Numeral

/-- The written form of an integer begins like a numeral. -/
theorem integerBytes_head (n : Int) :
    ∃ b bytes, integerBytes n = b :: bytes ∧ startsNumber b = true := by
  rcases n with m | m
  · obtain ⟨b, bytes, hbytes, hdigit⟩ := asciiBytes_toDigits m
    refine ⟨b, bytes, (integerBytes_ofNat m).trans hbytes, ?_⟩
    rw [startsNumber, hdigit, Bool.or_true]
  · exact ⟨_, _, integerBytes_negSucc m, rfl⟩

/-- An integer of 64 bits is read back from its written form. -/
theorem reads_number {n : Int} (hleast : -(twoTo 63 : Int) ≤ n) (hgreatest : n ≤ maxWord) :
    Reads number (integerBytes n) (.integer n) := by
  intro rest hrest
  -- the sign decides which reader sees the digits
  rcases n with m | m
  · have hunsigned := unsigned_toDigits (Int.ofNat_le.1 hgreatest) false hrest
    obtain ⟨b, bytes, hbytes, hdigit⟩ := asciiBytes_toDigits m
    rw [hbytes] at hunsigned
    rw [integerBytes_ofNat, hbytes, List.cons_append, number_of_digit hdigit]
    exact hunsigned
  · have hsmall : m + 1 ≤ twoTo 63 := by omega
    have hunsigned := unsigned_toDigits (Nat.le_trans hsmall (by decide)) true hrest
    have hnegative : ofInteger true (m + 1) = .integer (.negSucc m) := by
      rw [ofInteger, if_pos rfl, if_pos ⟨Nat.succ_pos m, hsmall⟩]
      rfl
    rw [hnegative] at hunsigned
    rw [integerBytes_negSucc]
    exact hunsigned

/-! ## Values of a wanted kind -/

theorem isBlank_of_startsNumber {b : UInt8} (h : startsNumber b = true) : Byte.isBlank b = false := by
  rcases hblank : Byte.isBlank b
  · rfl
  · simp only [Byte.isBlank, Bool.or_eq_true, decide_eq_true_eq] at hblank
    rcases hblank with ((rfl | rfl) | rfl) | rfl <;> exact absurd h (by decide)

/-- An integer in range is read back from its written form. -/
theorem reads_integer (wanted : String) {n least greatest : Int} (hleast : least ≤ n)
    (hgreatest : n ≤ greatest) (hword : -(twoTo 63 : Int) ≤ least) (hword' : greatest ≤ maxWord) :
    Reads (integer wanted least greatest) (integerBytes n) n := by
  intro rest hrest
  have hnumber := reads_number (Int.le_trans hword hleast) (Int.le_trans hgreatest hword') rest
    hrest
  -- the reader looks at the first byte before it reads the numeral
  obtain ⟨b, bytes, hbytes, hstarts⟩ := integerBytes_head n
  rw [hbytes] at hnumber ⊢
  unfold integer
  rw [List.cons_append] at hnumber ⊢
  rw [bind_apply_of_ok (ahead_cons (isBlank_of_startsNumber hstarts) _)]
  dsimp only
  rw [if_pos hstarts, bind_apply_of_ok hnumber]
  dsimp only
  rw [if_pos ⟨hleast, hgreatest⟩]
  rfl

theorem reads_int64 (n : Int64) : Reads int64 (integerBytes n.toInt) n := by
  intro rest hrest
  have hinteger := reads_integer "i64" (Int64.minValue_le_toInt n) (Int64.toInt_le n)
    (by decide) (by decide) rest hrest
  have hint64 := map_apply_of_ok hinteger Int64.ofInt
  rw [Int64.ofInt_toInt] at hint64
  exact hint64

theorem reads_int32 (n : Int32) : Reads int32 (integerBytes n.toInt) n := by
  intro rest hrest
  have hinteger := reads_integer "i32" (Int32.minValue_le_toInt n) (Int32.toInt_le n)
    (by decide) (by decide) rest hrest
  have hint32 := map_apply_of_ok hinteger Int32.ofInt
  rw [Int32.ofInt_toInt] at hint32
  exact hint32

/-- A fixed word is read back, whatever comes after. -/
theorem word_append (w rest : Bytes) : word w (w ++ rest) = .ok ((), rest) := by
  induction w with
  | nil => rfl
  | cons b w ih =>
    rw [List.cons_append, word, if_pos rfl]
    exact ih

/-- The first byte tells `true` and `false` apart. -/
theorem ahead_booleanBytes (b : Bool) (rest : Bytes) :
    ahead (booleanBytes b ++ rest) =
      .ok (some (bif b then Byte.lowerT else Byte.lowerF), booleanBytes b ++ rest) := by
  cases b with
  | true => exact ahead_cons rfl _
  | false => exact ahead_cons rfl _

theorem reads_boolean (b : Bool) : Reads boolean (booleanBytes b) b := by
  intro rest _
  have hword := word_append (booleanBytes b) rest
  unfold boolean
  rw [bind_apply_of_ok (ahead_booleanBytes b rest)]
  cases b with
  | true => exact bind_apply_of_ok hword
  | false => exact bind_apply_of_ok hword

theorem ahead_textBytes (s : String) (rest : Bytes) :
    ahead (textBytes s ++ rest) = .ok (some Byte.quote, textBytes s ++ rest) := ahead_cons rfl _

theorem advance_textBytes (s : String) (rest : Bytes) :
    advance (textBytes s ++ rest) = .ok ((), (textBytes s).tail ++ rest) := rfl

/-- A text is read back, whatever comes after. -/
theorem string_textBytes (s : String) (rest : Bytes) :
    string (textBytes s ++ rest) = .ok (s, rest) := by
  unfold string textAs
  rw [bind_apply_of_ok (ahead_textBytes s rest)]
  refine (bind_apply_of_ok (advance_textBytes s rest)).trans ?_
  exact text_textBytes s rest

/-- A key is read back, whatever comes after. -/
theorem key_textBytes (s : String) (rest : Bytes) :
    key text (textBytes s ++ rest) = .ok (s, rest) := by
  unfold key
  rw [bind_apply_of_ok (ahead_textBytes s rest)]
  refine (bind_apply_of_ok (advance_textBytes s rest)).trans ?_
  exact text_textBytes s rest

theorem reads_string (s : String) : Reads string (textBytes s) s := by
  intro rest _
  exact string_textBytes s rest

/-- A value that may be absent is read like any other where it does not begin like the word for an
absent one. -/
theorem reads_optional {α : Type} {read : Reader α} {b : UInt8} {bytes : Bytes} {a : α}
    (h : Reads read (b :: bytes) a) (hblank : Byte.isBlank b = false) (hnull : b ≠ Byte.lowerN) :
    Reads (optional read) (b :: bytes) (some a) := by
  intro rest hrest
  unfold optional
  rw [List.cons_append, bind_apply_of_ok (ahead_cons hblank _)]
  generalize hnext : some b = next
  split
  · exact absurd (Option.some.inj hnext) hnull
  · exact map_apply_of_ok (h rest hrest) some

end Reader

end StreamControl.Json
