import StreamControl.Proofs.Json.Reals
import StreamControl.Proofs.Json.Records
import StreamControl.Wire.Column

/-!
# Reading back columns

A value is written without its kind, and its first byte tells the kind when it is read.  All values
but doubles are read back as they were, and doubles as `Double.reread` says (`Value.reads_reread`);
types and whole columns follow.
-/

namespace StreamControl

open Json

/-! ## Values -/

/-- A value that is written exactly: anything but a double. -/
def Value.Exact (v : Value) : Prop := ∀ x, v ≠ .real x

namespace Value

/-- The value that the written form of a value is read as. -/
def reread : Value → Value
  | .real x => if x.isFinite then .real x.reread else .null
  | v => v

theorem reread_of_exact {v : Value} (hexact : v.Exact) : v.reread = v := by
  cases v with
  | real x => exact absurd rfl (hexact x)
  | null | boolean | integer | text => rfl

/-- Where a value begins like a numeral, a numeral is read. -/
theorem reader_of_startsNumber {b : UInt8} (hstarts : Reader.startsNumber b = true) (bytes : Bytes)
    (depth : Nat) : reader depth (b :: bytes) = (ofNumeral <$> Reader.number) (b :: bytes) := by
  -- none of the words begins like a numeral
  have hword : ∀ w : UInt8, Reader.startsNumber w = false → b ≠ w := by
    rintro w hw rfl
    rw [hstarts] at hw
    contradiction
  unfold reader
  rw [Reader.bind_apply_of_ok (Reader.ahead_cons (Reader.isBlank_of_startsNumber hstarts) _)]
  dsimp only
  rw [if_neg (hword Byte.lowerN rfl), if_neg (hword Byte.lowerT rfl),
    if_neg (hword Byte.lowerF rfl), if_pos hstarts]

/-- An integer of 64 bits with a sign is read as an integer. -/
theorem ofNumeral_toInt (n : Int64) : ofNumeral (.integer n.toInt) = .integer n := by
  rw [ofNumeral, if_pos (Int64.toInt_le n), Int64.ofInt_toInt]

theorem reads_null (depth : Nat) : Reads (reader depth) (utf8 "null") .null := by
  intro rest _
  have hahead : Reader.ahead (utf8 "null" ++ rest) =
      .ok (some Byte.lowerN, utf8 "null" ++ rest) := Reader.ahead_cons rfl _
  unfold reader
  rw [Reader.bind_apply_of_ok hahead]
  exact Reader.bind_apply_of_ok (Reader.word_append (utf8 "null") rest)

/-- The written form of a numeral is read as the value that it denotes. -/
theorem reads_ofNumeral {bytes : Bytes} {n : Numeral}
    (hstarts : ∃ b left, bytes = b :: left ∧ Reader.startsNumber b = true)
    (hreads : Reads Reader.number bytes n) (depth : Nat) :
    Reads (reader depth) bytes (ofNumeral n) := by
  intro rest hrest
  obtain ⟨b, left, rfl, hstarts⟩ := hstarts
  exact (reader_of_startsNumber hstarts (left ++ rest) depth).trans
    (Reader.map_apply_of_ok (hreads rest hrest) ofNumeral)

/-- Every value is read from its written form, if not always as it was. -/
theorem reads_reread (v : Value) (depth : Nat) : Reads (reader depth) v.bytes v.reread := by
  cases v with
  | null => exact reads_null depth
  | boolean b =>
    intro rest _
    have hword := Reader.word_append (booleanBytes b) rest
    unfold reader bytes
    rw [Reader.bind_apply_of_ok (Reader.ahead_booleanBytes b rest)]
    cases b with
    | true => exact Reader.bind_apply_of_ok hword
    | false => exact Reader.bind_apply_of_ok hword
  | integer n =>
    have hleast : -(twoTo 63 : Int) ≤ n.toInt := Int64.minValue_le_toInt n
    have hgreatest : n.toInt ≤ Numeral.maxWord := Int.le_trans (Int64.toInt_le n) (by decide)
    have hreads := reads_ofNumeral (Reader.integerBytes_head n.toInt)
      (Reader.reads_number hleast hgreatest) depth
    rw [ofNumeral_toInt] at hreads
    exact hreads
  | real x =>
    rw [reread, bytes]
    -- what is no finite number is written as `null`, and read as that
    by_cases hfinite : x.isFinite = true
    · obtain ⟨hstarts, hreads⟩ := Reader.reads_real hfinite
      rw [if_pos hfinite]
      exact reads_ofNumeral hstarts hreads depth
    · rw [if_neg hfinite, realBytes, if_neg hfinite]
      exact reads_null depth
  | text s =>
    intro rest _
    unfold reader bytes
    rw [Reader.bind_apply_of_ok (Reader.ahead_textBytes s rest)]
    refine (Reader.bind_apply_of_ok (Reader.advance_textBytes s rest)).trans ?_
    exact Reader.map_apply_of_ok (Reader.text_textBytes s rest) text

end Value

/-! ## Types -/

namespace DataType

/-- A type is read back from its name. -/
theorem nameReader_bytes (t : DataType) (rest : Bytes) :
    nameReader (t.bytes ++ rest) = .ok (t, rest) := by
  unfold nameReader bytes
  rw [Reader.bind_apply_of_ok (Reader.key_textBytes t.name rest), ofName?_name]
  rfl

theorem reader_bytes (t : DataType) (depth : Nat) (rest : Bytes) :
    reader depth (t.bytes ++ rest) = .ok (t, rest) := by
  have hahead : Reader.ahead (t.bytes ++ rest) = .ok (some Byte.quote, t.bytes ++ rest) :=
    Reader.ahead_textBytes t.name rest
  unfold reader
  rw [Reader.bind_apply_of_ok hahead]
  exact nameReader_bytes t rest

theorem reads_bytes (t : DataType) (depth : Nat) : Reads (reader depth) t.bytes t := by
  intro rest _
  exact reader_bytes t depth rest

/-- A type that may be absent is read back where it is declared. -/
theorem reads_optional {t : Option DataType} {bytes : Bytes} (h : t.map DataType.bytes = some bytes)
    (depth : Nat) : Reads (Reader.optional (reader depth)) bytes t := by
  obtain ⟨declared, rfl, rfl⟩ := Option.map_eq_some_iff.1 h
  exact Reader.reads_optional (reads_bytes declared depth) rfl (by decide)

end DataType

/-! ## Columns -/

namespace Column

/-- The column that the written form of a column is read as. -/
def reread (c : Column) : Column := { c with value := c.value.reread }

theorem reread_of_exact {c : Column} (hexact : c.value.Exact) : c.reread = c := by
  rw [reread, Value.reread_of_exact hexact]

/-- Every field of a column can be read. -/
theorem legible (c : Column) (depth : Nat) : format.LegibleAs depth c c.reread where
  keys f := by cases f <;> rfl
  nodup := by decide
  written f bytes hwritten := by
    cases f with
    | name =>
      cases hwritten
      exact Reader.reads_string _
    | type => exact DataType.reads_optional hwritten depth
    | value =>
      cases hwritten
      exact Value.reads_reread c.value depth
  absent f hwritten := by
    cases f with
    | name | value => contradiction
    | type => exact congrArg some (Option.map_eq_none_iff.1 hwritten).symm

end Column

end StreamControl
