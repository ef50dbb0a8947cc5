import StreamControl.Proofs.Standard.Wiring

/-!
# Which messages reach their stream

Every command of the standard processors begins with the same two tests: the message must name a
stream, and the stream must admit the operation.  A message reaches a stream (`Reaches`) or is barred
for a reason that its reply tells (`Barred`), and never both.
-/

namespace StreamControl

namespace Standard

variable {m : Message} {t : Streams} {stream : String}

/-- The engine owns the stream, and none of the operations that its streams admit is that of the
message, in any case of ASCII letters. -/
def Withholds (t : Streams) (stream : String) (m : Message) : Prop :=
  (∃ found, t.get? stream = some found ∧ found.schema.userDefined = false) ∧
    ∀ listed ∈ t.internalOperations, Operation.fold listed ≠ Operation.fold m.operationOrEmpty

/-- A message names a stream that is not withheld from it. -/
structure Reaches (m : Message) (t : Streams) (stream : String) : Prop where
  named : m.streamName = some stream
  nonempty : stream ≠ ""
  admitted : ¬ Withholds t stream m

/-- Why a message reaches no stream. -/
inductive Barred (m : Message) (t : Streams) : Refusal → Prop
  | unaddressed : m.streamName = none ∨ m.streamName = some "" →
      Barred m t ⟨.parserError, "stream name is required"⟩
  | withheld {stream : String} :
      m.streamName = some stream → stream ≠ "" → Withholds t stream m →
      Barred m t ⟨.streamOperationNotAllowed,
        "operation " ++ m.operationOrEmpty ++ " is not allowed on stream " ++ stream⟩

/-! ## The stream of a message -/

theorem stream?_eq_none_iff :
    m.stream? = none ↔ m.streamName = none ∨ m.streamName = some "" := by
  rw [Message.stream?]
  rcases m.streamName with _ | name
  · simp
  · simp

theorem stream?_eq_some_iff : m.stream? = some stream ↔ m.streamName = some stream ∧ stream ≠ "" := by
  rw [Message.stream?, Option.filter_eq_some_iff, decide_eq_true_eq]

/-- A stream admits the operation of a message unless it is withheld. -/
theorem admits_iff : t.admits stream m.operationOrEmpty = true ↔ ¬ Withholds t stream m := by
  rw [Streams.admits, Streams.schema?, Withholds]
  rcases t.get? stream with _ | found
  · simp
  · rcases huser : found.schema.userDefined with _ | _
    · -- the engine owns the stream: some entry of the list must be the operation
      simp only [Option.map_some, huser, Bool.false_or, List.any_eq_true, Operation.same_iff,
        Option.some.injEq, exists_eq_left', true_and, not_forall, not_not, exists_prop]
      exact exists_congr fun listed => and_congr_right fun _ => eq_comm
    · simp [huser]

/-! ## The first two tests -/

namespace Reaches

theorem stream?_eq (h : Reaches m t stream) : m.stream? = some stream :=
  stream?_eq_some_iff.2 ⟨h.named, h.nonempty⟩

/-- A message reaches at most one stream. -/
theorem eq {other : String} (h : Reaches m t stream) (h' : Reaches m t other) : stream = other :=
  Option.some.inj (h.named.symm.trans h'.named)

end Reaches

/-- A message reaches its stream or is barred. -/
theorem reaches_or_barred (m : Message) (t : Streams) :
    (∃ stream, Reaches m t stream) ∨ ∃ f, Barred m t f := by
  rcases hstream : m.stream? with _ | stream
  · exact .inr ⟨_, .unaddressed (stream?_eq_none_iff.1 hstream)⟩
  · obtain ⟨hnamed, hnonempty⟩ := stream?_eq_some_iff.1 hstream
    by_cases hwithheld : Withholds t stream m
    · exact .inr ⟨_, .withheld hnamed hnonempty hwithheld⟩
    · exact .inl ⟨stream, hnamed, hnonempty, hwithheld⟩

section Verdicts

variable {decide : (stream : String) → Streams → Except Failure Streams}

theorem Barred.verdictOn_eq {f : Refusal} (h : Barred m t f) :
    verdictOn m decide t = .error (.refused f) := by
  cases h with
  | unaddressed habsent => rw [verdictOn, stream?_eq_none_iff.2 habsent]; rfl
  | @withheld stream hnamed hnonempty hwithheld =>
    have hadmits : ¬ t.admits stream m.operationOrEmpty = true := fun hadmits =>
      admits_iff.1 hadmits hwithheld
    rw [verdictOn, stream?_eq_some_iff.2 ⟨hnamed, hnonempty⟩]
    exact if_neg hadmits

theorem Reaches.verdictOn_eq (h : Reaches m t stream) : verdictOn m decide t = decide stream t := by
  rw [verdictOn, h.stream?_eq]
  exact if_pos (admits_iff.2 h.admitted)

end Verdicts

end Standard

end StreamControl
