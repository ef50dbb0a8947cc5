import StreamControl.Proofs.Wire.Columns
import StreamControl.Proofs.Wire.ReadBack

/-!
# Reading back batches

A message writes what it has and leaves out what is absent, so an identifier or a text that is empty
is told apart from one that is missing.  Nothing else gets lost either, but the doubles in its columns
are read as `Double.reread` says (`Message.decodeBatch_batchJson`); `Message.batch_read_back` is about
batches without any.
-/

namespace StreamControl

open Json

namespace Message

/-- A message that is written exactly: none of its columns holds a double. -/
def Exact (m : Message) : Prop := ∀ c ∈ m.columns, c.value.Exact

/-- A time that may be absent is read back where it is present. -/
theorem reads_optionalTime {time : Option Int64} {bytes : Bytes}
    (h : (time.map fun t => integerBytes t.toInt) = some bytes) :
    Reads (Reader.optional Reader.int64) bytes time := by
  obtain ⟨t, rfl, rfl⟩ := Option.map_eq_some_iff.1 h
  have hread := Reader.reads_int64 t
  obtain ⟨b, digits, hbytes, hstarts⟩ := Reader.integerBytes_head t.toInt
  rw [hbytes] at hread ⊢
  refine Reader.reads_optional hread (Reader.isBlank_of_startsNumber hstarts) ?_
  rintro rfl
  contradiction

/-- The message that the written form of a message is read as. -/
def reread (m : Message) : Message := { m with columns := m.columns.map Column.reread }

theorem reread_of_exact {m : Message} (hexact : m.Exact) : m.reread = m := by
  have hcolumns : m.columns.map Column.reread = m.columns := by
    rw [List.map_congr_left fun c hc => Column.reread_of_exact (hexact c hc), List.map_id']
  rw [reread, hcolumns]

/-- Every field of a message can be read. -/
theorem legibleAs (m : Message) (depth : Nat) : format.LegibleAs (depth + 2) m m.reread where
  keys f := by cases f <;> rfl
  nodup := by decide
  written f bytes hwritten := by
    -- fields of the same kind are read back by the same reader
    cases f with
    | operation | streamName | request => exact reads_optionalText hwritten
    | sessionId | requestId =>
      cases hwritten
      exact Reader.reads_string _
    | timestamp => exact reads_optionalTime hwritten
    | columns =>
      cases hwritten
      intro rest _
      exact RecordFormat.list_listBytes_as (fun c _ => c.legible depth) rest
  absent f hwritten := by
    cases f with
    | sessionId | requestId | columns => contradiction
    | operation | streamName | request | timestamp =>
      exact congrArg some (Option.map_eq_none_iff.1 hwritten).symm

/-- Every field of a message can be read back, unless a column holds a double. -/
theorem legible {m : Message} (hexact : m.Exact) (depth : Nat) :
    format.Legible (depth + 2) m := by
  have hlegible := m.legibleAs depth
  rw [reread_of_exact hexact] at hlegible
  exact hlegible

/-- A batch is read from its written form, if its doubles are not always read as they were. -/
theorem decodeBatch_batchJson (batch : List Message) :
    decodeBatch (batchJson batch) = .ok (batch.map reread) :=
  RecordFormat.document_listBytes_as fun m _ => m.legibleAs 123

/-- **Batches are read back as they were written.**  Reading the written form of a batch without
doubles gives the same messages in the same order.  So such batches are written differently, and a
document that was read as one of them can be written anew and is read the same. -/
theorem batch_read_back {batch : List Message} (hexact : ∀ m ∈ batch, m.Exact) :
    decodeBatch (batchJson batch) = .ok batch ∧
      (∀ other : List Message, (∀ m ∈ other, m.Exact) →
        batchJson other = batchJson batch → other = batch) ∧
      ∀ document, decodeBatch document = .ok batch →
        decodeBatch (batchJson batch) = decodeBatch document := by
  -- stated for any batch, as injectivity needs it for two
  have hread : ∀ ms : List Message, (∀ m ∈ ms, m.Exact) → decodeBatch (batchJson ms) = .ok ms := by
    intro ms hms
    exact RecordFormat.document_listBytes fun m hm => legible (hms m hm) 123
  refine ⟨hread batch hexact, ?_, ?_⟩
  · intro other hother hsame
    have hothers := hread other hother
    rw [hsame, hread batch hexact] at hothers
    exact (Except.ok.inj hothers).symm
  · intro document hdocument
    rw [hread batch hexact, hdocument]

/-- A message with all that needs care: a quote, a backslash, control characters, the least integers
and a text that is present and empty; behind it a message that has nothing. -/
theorem batch_read_back_escaped :
    let quoted : Message :=
      { operation := some "", streamName := some "a\"b\\c\n\x00é😀", sessionId := "s/1",
        requestId := "", request := none, timestamp := some Int64.minValue,
        columns := [.declaring "temp" .long, ⟨"temp", none, .integer Int64.minValue⟩,
          .carrying "" (.boolean false), .carrying "note" (.text "\t")] }
    let bare : Message := ⟨none, none, "", "", none, none, []⟩
    let batch := [quoted, bare]
    (∀ m ∈ batch, m.Exact) ∧ decodeBatch (batchJson batch) = .ok batch ∧
      ((∀ m ∈ [bare], m.Exact) ∧ batchJson [bare] ≠ batchJson batch) ∧
      decodeBatch (Byte.space :: batchJson batch) = .ok batch ∧
      decodeBatch (batchJson batch) = decodeBatch (Byte.space :: batchJson batch) := by
  intro quoted bare batch
  have hquoted : quoted.Exact := by
    intro c hc x
    simp only [quoted, Column.declaring, Column.carrying, List.mem_cons, List.not_mem_nil,
      or_false] at hc
    rcases hc with rfl | rfl | rfl | rfl <;> simp
  have hbare : bare.Exact := fun c hc => absurd hc List.not_mem_nil
  have hbatch : ∀ m ∈ batch, m.Exact :=
    List.forall_mem_cons.2 ⟨hquoted, List.forall_mem_singleton.2 hbare⟩
  have halone : ∀ m ∈ [bare], m.Exact := List.forall_mem_singleton.2 hbare
  obtain ⟨hread, hinjective, hanew⟩ := batch_read_back hbatch
  have hblank : decodeBatch (Byte.space :: batchJson batch) = .ok batch := by
    rw [← hread]
    rfl
  refine ⟨hbatch, hread, ⟨halone, fun hsame => ?_⟩, hblank, hanew _ hblank⟩
  exact absurd (congrArg List.length (hinjective [bare] halone hsame)) (by decide)

end Message

end StreamControl
