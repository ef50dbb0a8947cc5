import StreamControl.Proofs.Streams.Payloads
import StreamControl.Proofs.Wire.Columns

/-!
# Integer literals on the wire

An integer literal of any length is read as an integer exactly if 64 bits with a sign hold it
(`IntegerLiteral.range_decides`).  Any other is read as a finite double, or refused when it is out of
the range of doubles; so no integer column ever holds a number that was rounded.
-/

namespace StreamControl

open Json Magnitude

/-- An integer literal: digits, perhaps behind a minus sign. -/
structure IntegerLiteral where
  negative : Bool
  digits : List Char
  areDigits : Digits digits
  nonempty : digits ≠ []
  /-- A zero in front stands alone and without a sign. -/
  zero : digits.head? = some '0' → digits = ['0'] ∧ negative = false

namespace IntegerLiteral

/-- The text of a literal. -/
def bytes (l : IntegerLiteral) : Bytes :=
  (if l.negative then [Byte.minus] else []) ++ asciiBytes l.digits

/-- The number of a literal without its sign. -/
def size (l : IntegerLiteral) : ℕ := Nat.ofDigitChars 10 l.digits 0

/-- The number that a literal denotes. -/
def value (l : IntegerLiteral) : ℤ := if l.negative then -(l.size : ℤ) else l.size

variable (l : IntegerLiteral)

/-! ## The numeral -/

theorem exists_head : ∃ c cs, l.digits = c :: cs := List.exists_cons_of_ne_nil l.nonempty

theorem size_pos {c : Char} {cs : List Char} (hdigits : l.digits = c :: cs) (hc : c ≠ '0') :
    0 < l.size := by
  have hareDigits := l.areDigits
  rw [hdigits] at hareDigits
  have hnonzero := Reader.digit_ne_zero (hareDigits c List.mem_cons_self) hc
  rw [size, hdigits, Reader.ofDigitChars_head]
  exact Nat.lt_of_lt_of_le (Nat.pos_of_ne_zero hnonzero) (Numeral.le_ofDigitChars _ cs)

/-- A negative literal is not zero. -/
theorem size_pos_of_negative (hneg : l.negative = true) : 0 < l.size := by
  obtain ⟨c, cs, hdigits⟩ := l.exists_head
  refine l.size_pos hdigits ?_
  rintro rfl
  have hzero := (l.zero (by rw [hdigits]; rfl)).2
  rw [hneg] at hzero
  contradiction

/-- A literal begins like a numeral, and its sign decides how its digits are read. -/
theorem number_bytes :
    (∃ b left, l.bytes = b :: left ∧ Reader.startsNumber b = true) ∧
      Reader.number l.bytes = Reader.unsigned l.negative (asciiBytes l.digits) := by
  obtain ⟨c, cs, hdigits⟩ := l.exists_head
  have hdigit := digit?_of_isDigit (l.areDigits c (by rw [hdigits]; exact List.mem_cons_self))
  have hsome : (Byte.digit? (UInt8.ofNat c.toNat)).isSome = true := by rw [hdigit]; rfl
  rw [bytes, hdigits, asciiBytes_cons]
  cases l.negative with
  | true => exact ⟨⟨_, _, rfl, rfl⟩, rfl⟩
  | false =>
    refine ⟨⟨_, _, rfl, ?_⟩, Reader.number_of_digit hsome _⟩
    rw [Reader.startsNumber, hsome, Bool.or_true]

/-- Digits that fit 64 bits without a sign are all gathered. -/
theorem unsigned_of_fits (hfits : l.size ≤ Numeral.maxWord) :
    Reader.unsigned l.negative (asciiBytes l.digits) =
      .ok (Numeral.ofInteger l.negative l.size, []) := by
  have hend := Reader.integerTail_of_follows follows_nil l.negative l.size 0
  have hareDigits := l.areDigits
  obtain ⟨c, cs, hdigits⟩ := l.exists_head
  rw [← List.append_nil (asciiBytes l.digits)]
  -- a leading zero stands alone, and is read apart from other digits
  by_cases hc : c = '0'
  · have hzero : l.digits = ['0'] := (l.zero (by rw [hdigits, hc]; rfl)).1
    have hsize : l.size = 0 := by rw [size, hzero]; rfl
    rw [hzero, Reader.unsigned_zero follows_nil.noDigit]
    rw [hsize] at hend ⊢
    exact hend
  · rw [size, hdigits] at hfits hend ⊢
    rw [hdigits] at hareDigits
    rw [Reader.unsigned_digits hareDigits hc hfits follows_nil.noDigit]
    exact hend

/-- Other digits give a finite double, or a number beyond the third largest one is refused. -/
theorem unsigned_of_overflow (hover : Numeral.maxWord < l.size) :
    (∃ y < infinite, Reader.unsigned l.negative (asciiBytes l.digits) =
        .ok (.real (.ofMagnitude l.negative y), [])) ∨
      (Reader.unsigned l.negative (asciiBytes l.digits) = .error .malformed ∧
        Magnitude.value (infinite - 3) < l.size) := by
  have hareDigits := l.areDigits
  obtain ⟨c, cs, hdigits⟩ := l.exists_head
  -- a literal beyond the word is not zero, and only zero begins with a zero
  have hc : c ≠ '0' := by
    rintro rfl
    have hzero : l.digits = ['0'] := (l.zero (by rw [hdigits]; rfl)).1
    have hsize : l.size = 0 := by rw [size, hzero]; rfl
    omega
  rw [size, hdigits] at hover ⊢
  rw [hdigits] at hareDigits
  obtain ⟨m, k, hm, hword, hle, hread⟩ :=
    Reader.unsigned_overflow l.negative hareDigits hc hover follows_nil
  rw [List.append_nil] at hread
  rw [hread, Reader.real]
  rcases Numeral.scaled?_or_beyond hm hword with ⟨y, hscaled, hfinite⟩ | ⟨hscaled, hbeyond⟩
  · left
    rw [hscaled]
    exact ⟨y, hfinite, rfl⟩
  · right
    rw [hscaled]
    refine ⟨rfl, hbeyond.trans_le ?_⟩
    rw [← cast_tenTo]
    exact_mod_cast hle

/-! ## The value -/

theorem isFinite_ofNat (negative : Bool) {m : ℕ} (hword : m ≤ Numeral.maxWord) :
    (Double.ofMagnitude negative (.ofNat m)).isFinite = true :=
  Double.isFinite_ofMagnitude negative (Numeral.ofNat_nearest_of_le (Numeral.word_le hword)).2

/-- What the digits that fit 64 bits denote. -/
theorem ofNumeral_ofInteger {negative : Bool} {m : ℕ} (hword : m ≤ Numeral.maxWord)
    (hsign : negative = true → 0 < m) {n : ℤ} (hn : n = if negative then -(m : ℤ) else m) :
    (-2 ^ 63 ≤ n ∧ n ≤ 2 ^ 63 - 1 ∧
        Value.ofNumeral (Numeral.ofInteger negative m) = .integer (Int64.ofInt n)) ∨
      (¬ (-2 ^ 63 ≤ n ∧ n ≤ 2 ^ 63 - 1) ∧
        ∃ x : Double, Value.ofNumeral (Numeral.ofInteger negative m) = .real x ∧
          x.isFinite = true) := by
  have hmax : Int64.maxValue.toInt = 2 ^ 63 - 1 := rfl
  have htwo : twoTo 63 = 2 ^ 63 := rfl
  -- the sign decides which of the two bounds counts
  cases negative with
  | true =>
    have hn : n = -(m : ℤ) := hn
    have hpos := hsign rfl
    by_cases hsmall : m ≤ twoTo 63
    · left
      rw [Numeral.ofInteger, if_pos rfl, if_pos ⟨hpos, hsmall⟩, Value.ofNumeral, hmax,
        if_pos (by omega), ← hn]
      exact ⟨by omega, by omega, rfl⟩
    · right
      rw [Numeral.ofInteger, if_pos rfl, if_neg (by omega)]
      exact ⟨by omega, _, rfl, isFinite_ofNat true hword⟩
  | false =>
    have hn : n = m := hn
    rw [Numeral.ofInteger, if_neg Bool.false_ne_true, Value.ofNumeral, hmax]
    by_cases hsmall : (m : ℤ) ≤ 2 ^ 63 - 1
    · left
      rw [if_pos hsmall, ← hn]
      exact ⟨by omega, by omega, rfl⟩
    · right
      rw [if_neg hsmall]
      exact ⟨by omega, _, rfl, isFinite_ofNat false hword⟩

/-- A document that is one numeral is read as the value that it denotes. -/
theorem document_of_ok {numeral : Numeral} (h : Reader.number l.bytes = .ok (numeral, [])) :
    Reader.document Value.reader l.bytes = .ok (Value.ofNumeral numeral) := by
  obtain ⟨⟨b, left, hbytes, hstarts⟩, -⟩ := l.number_bytes
  have hread := Reader.map_apply_of_ok h Value.ofNumeral
  rw [hbytes, ← Value.reader_of_startsNumber hstarts left Reader.maxDepth] at hread
  unfold Reader.document
  rw [hbytes, hread]
  rfl

/-- A document that is a refused numeral is refused. -/
theorem document_of_error {f : Fault} (h : Reader.number l.bytes = .error f) :
    Reader.document Value.reader l.bytes = .error f := by
  obtain ⟨⟨b, left, hbytes, hstarts⟩, -⟩ := l.number_bytes
  have hread := Reader.map_apply_of_error h Value.ofNumeral
  rw [hbytes, ← Value.reader_of_startsNumber hstarts left Reader.maxDepth] at hread
  unfold Reader.document
  rw [hbytes, hread]
  rfl

/-- An integer literal is read as its integer where 64 bits with a sign hold it, and as a finite
double or not at all where they do not. -/
theorem document_bytes :
    (-2 ^ 63 ≤ l.value ∧ l.value ≤ 2 ^ 63 - 1 ∧
        Reader.document Value.reader l.bytes = .ok (.integer (Int64.ofInt l.value))) ∨
      (¬ (-2 ^ 63 ≤ l.value ∧ l.value ≤ 2 ^ 63 - 1) ∧
        ((∃ x : Double, Reader.document Value.reader l.bytes = .ok (.real x) ∧
            x.isFinite = true) ∨
          (Reader.document Value.reader l.bytes = .error .malformed ∧
            Magnitude.value (infinite - 3) < |l.value|))) := by
  have hnumber := l.number_bytes.2
  -- beyond 64 bits even without a sign it is no integer; else the sign decides
  rcases Nat.lt_or_ge Numeral.maxWord l.size with hover | hfits
  · right
    have houtside : ¬ (-2 ^ 63 ≤ l.value ∧ l.value ≤ 2 ^ 63 - 1) := by
      have hmax : Numeral.maxWord = 2 ^ 64 - 1 := rfl
      unfold value
      split <;> omega
    have habs : |l.value| = l.size := by
      unfold value
      split
      · rw [abs_neg, Nat.abs_cast]
      · rw [Nat.abs_cast]
    refine ⟨houtside, ?_⟩
    rcases l.unsigned_of_overflow hover with ⟨y, hfinite, hread⟩ | ⟨hread, hbeyond⟩
    · left
      rw [hread] at hnumber
      exact ⟨_, l.document_of_ok hnumber, Double.isFinite_ofMagnitude _ hfinite⟩
    · right
      rw [hread] at hnumber
      refine ⟨l.document_of_error hnumber, ?_⟩
      rw [habs, Int.cast_natCast]
      exact hbeyond
  · rw [l.unsigned_of_fits hfits] at hnumber
    rw [l.document_of_ok hnumber]
    rcases ofNumeral_ofInteger hfits l.size_pos_of_negative (rfl : l.value = _) with
      ⟨hleast, hgreatest, hvalue⟩ | ⟨houtside, x, hvalue, hfinite⟩
    · left
      rw [hvalue]
      exact ⟨hleast, hgreatest, rfl⟩
    · right
      rw [hvalue]
      exact ⟨houtside, .inl ⟨x, rfl, hfinite⟩⟩

/-- **The range decides what an integer literal is.**  A literal of any length is read as its integer
if that lies between `-2 ^ 63` and `2 ^ 63 - 1`.  Otherwise it is read as a finite double, or refused
as malformed, and then it lies beyond the third largest double.  So an integer column accepts what is
read exactly if 32 bits hold it, a long column exactly if 64 bits do, a floating column always, and
columns of texts or booleans never. -/
theorem range_decides :
    (-2 ^ 63 ≤ l.value ∧ l.value ≤ 2 ^ 63 - 1 →
      ∃ n : Int64, n.toInt = l.value ∧
        Reader.document Value.reader l.bytes = .ok (.integer n)) ∧
      (¬ (-2 ^ 63 ≤ l.value ∧ l.value ≤ 2 ^ 63 - 1) →
        (∃ x : Double, x.isFinite = true ∧
          Reader.document Value.reader l.bytes = .ok (.real x)) ∨
        (Reader.document Value.reader l.bytes = .error .malformed ∧
          Magnitude.value (infinite - 3) < |l.value|)) ∧
      ∀ v, Reader.document Value.reader l.bytes = .ok v →
        (DataType.integer.accepts v = true ↔ -2 ^ 31 ≤ l.value ∧ l.value ≤ 2 ^ 31 - 1) ∧
        (DataType.long.accepts v = true ↔ -2 ^ 63 ≤ l.value ∧ l.value ≤ 2 ^ 63 - 1) ∧
        DataType.float.accepts v = true ∧ DataType.double.accepts v = true ∧
        DataType.string.accepts v = false ∧ DataType.boolean.accepts v = false := by
  rcases l.document_bytes with ⟨hleast, hgreatest, hread⟩ | ⟨houtside, hread⟩
  · have hint : (Int64.ofInt l.value).toInt = l.value :=
      Int64.toInt_ofInt_of_le hleast (Int.lt_of_le_sub_one hgreatest)
    refine ⟨fun _ => ⟨_, hint, hread⟩, fun h => absurd ⟨hleast, hgreatest⟩ h, ?_⟩
    intro v hv
    rw [hread] at hv
    cases hv
    -- the test for 32 bits is about the integer that was read
    have hfits : DataType.fitsInt32 (Int64.ofInt l.value) = true ↔ _ := DataType.fitsInt32_iff
    rw [hint] at hfits
    exact ⟨hfits, iff_of_true rfl ⟨hleast, hgreatest⟩, rfl, rfl, rfl, rfl⟩
  · refine ⟨fun h => absurd h houtside, fun _ => ?_, ?_⟩
    · rcases hread with ⟨x, hread, hfinite⟩ | hrefused
      · exact .inl ⟨x, hfinite, hread⟩
      · exact .inr hrefused
    · intro v hv
      rcases hread with ⟨x, hread, -⟩ | ⟨hread, -⟩
      · rw [hread] at hv
        cases hv
        refine ⟨?_, iff_of_false Bool.false_ne_true houtside, rfl, rfl, rfl, rfl⟩
        -- what 32 bits hold, 64 bits do
        exact iff_of_false Bool.false_ne_true fun h => houtside (by omega)
      · rw [hread] at hv
        cases hv

end IntegerLiteral

end StreamControl
