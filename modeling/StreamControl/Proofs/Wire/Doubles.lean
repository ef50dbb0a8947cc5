import StreamControl.Proofs.Wire.Batches

/-!
# Doubles on the wire

Every finite double comes back from its written form as a finite double of the same sign, alone and
in a column.  Most come back as they were, but not all (`Double.reread_two_lower`): the digits are the
shortest that name the double, and scaling them rounds more than once.  `Double.wire_close` says how
far apart the two can be and where they are the same.
-/

namespace StreamControl

open Json

/-- A value alone is read from the document that holds nothing else. -/
theorem Value.document_bytes (v : Value) : Reader.document Value.reader v.bytes = .ok v.reread := by
  have hread := v.reads_reread Reader.maxDepth [] follows_nil
  rw [List.append_nil] at hread
  unfold Reader.document
  rw [hread]
  rfl

/-- A message is read from its written form, if its doubles are not always read as they were. -/
theorem Message.decode_json (m : Message) : Message.decode m.json = .ok m.reread :=
  RecordFormat.document_bytes (m.legibleAs 124)

namespace Double

theorem value_reread {x : Double} (hfinite : x.isFinite = true) :
    (Value.real x).reread = .real x.reread := by
  rw [Value.reread, if_pos hfinite]

/-- **A finite double comes back nearly as it was.**  It is read as a finite double of the same sign,
and at most one double lies between the two; the other contents of a message do not change that.
Its written digits do round to it.  Zeros come back exactly, and so does every double whose written
digits are below `2 ^ 53` with a power of ten up to `10 ^ 22`. -/
theorem wire_close {x : Double} (hfinite : x.isFinite = true) :
    ∃ y : Double,
      Reader.document Value.reader (Value.real x).bytes = .ok (.real y) ∧
      (∀ (m : Message) (before after : List Column) (c : Column),
        m.columns = before ++ c :: after → c.value = .real x →
          Message.decode m.json = .ok { m with
            columns := before.map Column.reread ++
              { c with value := .real y } :: after.map Column.reread }) ∧
      y.isFinite = true ∧ y.isNegative = x.isNegative ∧
      y.magnitude ≤ x.magnitude + 2 ∧ x.magnitude ≤ y.magnitude + 2 ∧
      Magnitude.Nearest x.scanned.value x.magnitude ∧ (x.magnitude = 0 → y = x) ∧
      (x.scanned.digits < twoTo 53 → x.scanned.exponent.natAbs ≤ 22 → y = x) := by
  obtain ⟨hfinite', hsign, hup, hdown⟩ := reread_close hfinite
  refine ⟨x.reread, ?_, ?_, hfinite', hsign, hup, hdown, scanned_nearest x, ?_,
    fun hdigits hexponent => ?_⟩
  · rw [Value.document_bytes, value_reread hfinite]
  · intro m before after c hcolumns hvalue
    -- only the value of the one column is read otherwise than it was written
    have hcolumn : c.reread = { c with value := .real x.reread } := by
      rw [Column.reread, hvalue, value_reread hfinite]
    rw [Message.decode_json, Message.reread, hcolumns, List.map_append, List.map_cons, hcolumn]
  · intro hzero
    -- zeros are written with a power of ten that is small enough
    have hscanned : x.scanned = ⟨0, -1⟩ := by rw [scanned, if_pos hzero]
    refine reread_exact hfinite ?_ ?_
    · rw [hscanned]
      exact twoTo_pos 53
    · rw [hscanned]
      decide
  · exact reread_exact hfinite hdigits hexponent

/-- The double `21.5`, whose written digits are `215`, comes back as it was. -/
theorem wire_close_half :
    let x : Double := ⟨0x4035800000000000⟩
    x.isFinite = true ∧ x.scanned = ⟨215, -1⟩ ∧
      Reader.document Value.reader (Value.real x).bytes = .ok (.real x) := by
  intro x
  have hfinite : x.isFinite = true := by decide
  have hscanned : x.scanned = ⟨215, -1⟩ := by decide +kernel
  obtain ⟨y, hread, -, -, -, -, -, -, -, hexact⟩ := wire_close hfinite
  have hsame : y = x := hexact (by rw [hscanned]; decide) (by rw [hscanned]; decide)
  rw [hsame] at hread
  exact ⟨hfinite, hscanned, hread⟩

/-- The double written `9.980387587414581e+269` is read as the one two below it. -/
theorem reread_two_lower :
    let x : Double := ⟨0x77fe3a0b78cac8ac⟩
    x.isFinite = true ∧
      Reader.document Value.reader (Value.real x).bytes = .ok (.real ⟨0x77fe3a0b78cac8aa⟩) ∧
      Reader.document Value.reader (Value.real x).bytes ≠ .ok (.real x) := by
  intro x
  have hfinite : x.isFinite = true := by decide
  have hreread : x.reread = ⟨0x77fe3a0b78cac8aa⟩ := by decide +kernel
  have hread : Reader.document Value.reader (Value.real x).bytes =
      .ok (.real ⟨0x77fe3a0b78cac8aa⟩) := by
    rw [Value.document_bytes, value_reread hfinite, hreread]
  refine ⟨hfinite, hread, ?_⟩
  rw [hread]
  decide

end Double

end StreamControl
