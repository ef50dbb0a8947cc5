import StreamControl.Failure

/-!
# Outcomes and reports

A message that a processor was given ends in one of four ways; a report counts them over a batch.
-/

namespace StreamControl

/-- How a message ended at one processor. -/
inductive Outcome
  /-- No path matched: nothing ran and nothing was sent. -/
  | dropped
  /-- The action ran; `acknowledged` says whether it left the reply to the processor. -/
  | completed (acknowledged : Bool)
  /-- A precondition was violated. -/
  | rejected (f : Refusal)
  /-- An internal error, of which the outermost text is told. -/
  | failed (detail : String)
deriving DecidableEq, Repr

/-- The outcome of a failure. -/
def Outcome.ofError : Failure → Outcome
  | .refused f => .rejected f
  | .internal e => .failed e.message

/-- Counts over a batch. -/
structure Report where
  received : Nat
  dropped : Nat
  completed : Nat
  rejected : Nat
  failed : Nat
  /-- Messages for which a reply was sent. -/
  acknowledged : Nat
deriving DecidableEq, Repr

namespace Report

/-- Nothing was counted yet. -/
def zero : Report := ⟨0, 0, 0, 0, 0, 0⟩

/-- Counts one more outcome. -/
def record (r : Report) : Outcome → Report
  | .dropped => { r with received := r.received + 1, dropped := r.dropped + 1 }
  | .completed acknowledged =>
    { r with
      received := r.received + 1
      completed := r.completed + 1
      acknowledged := if acknowledged then r.acknowledged + 1 else r.acknowledged }
  | .rejected _ =>
    { r with
      received := r.received + 1
      rejected := r.rejected + 1
      acknowledged := r.acknowledged + 1 }
  | .failed _ =>
    { r with
      received := r.received + 1
      failed := r.failed + 1
      acknowledged := r.acknowledged + 1 }

/-- The counts over a list of outcomes. -/
def tally (outcomes : List Outcome) : Report := outcomes.foldl record zero

/-- The sum of two reports. -/
def merge (a b : Report) : Report :=
  { received := a.received + b.received
    dropped := a.dropped + b.dropped
    completed := a.completed + b.completed
    rejected := a.rejected + b.rejected
    failed := a.failed + b.failed
    acknowledged := a.acknowledged + b.acknowledged }

theorem merge_zero (r : Report) : r.merge zero = r := rfl

theorem zero_merge (r : Report) : zero.merge r = r := by simp [merge, zero]

theorem merge_comm (a b : Report) : a.merge b = b.merge a := by simp [merge, Nat.add_comm]

theorem merge_assoc (a b c : Report) : (a.merge b).merge c = a.merge (b.merge c) := by
  simp [merge, Nat.add_assoc]

/-- Counting an outcome commutes with adding what was counted before. -/
theorem merge_record (a b : Report) (o : Outcome) :
    a.merge (b.record o) = (a.merge b).record o := by
  cases o <;> simp [merge, record, Nat.add_assoc]
  split <;> rfl

/-- The counts over two lists in a row are the sum of the counts over each. -/
theorem tally_append (before after : List Outcome) :
    tally (before ++ after) = (tally before).merge (tally after) := by
  suffices h : ∀ (a b : Report) (outcomes : List Outcome),
      outcomes.foldl record (a.merge b) = a.merge (outcomes.foldl record b) by
    rw [tally, List.foldl_append, ← merge_zero (before.foldl record zero), h]
    rfl
  intro a b outcomes
  induction outcomes generalizing b with
  | nil => rfl
  | cons o outcomes ih => rw [List.foldl_cons, ← merge_record, ih, List.foldl_cons]

/-- Every outcome is counted as received. -/
theorem received_tally (outcomes : List Outcome) : (tally outcomes).received = outcomes.length := by
  induction outcomes with
  | nil => rfl
  | cons o outcomes ih =>
    have hfirst : (tally [o]).received = 1 := by cases o <;> rfl
    calc (tally ([o] ++ outcomes)).received
        = (tally [o]).received + (tally outcomes).received := by rw [tally_append]; rfl
      _ = (o :: outcomes).length := by rw [hfirst, ih, List.length_cons, Nat.add_comm]

end Report

end StreamControl
