import StreamControl.Proofs.Dispatch.Frontier
import StreamControl.Proofs.Dispatch.Trails

/-!
# A batch message by message

The calls of a run can be told apart by the message they are made for.  A turn of a message is what
one processor calls for it; the calls of a batch are all turns in a row (`Registry.calls_eq_turns`).
In one turn an action runs at most once and the sink is handed at most one reply.  The report of a
processor counts how the turns ended (`Report.tally_eq`).
-/

namespace StreamControl

variable {σ : Type}

/-! ## Turns -/

/-- The calls of a processor for each of its messages, up to the first whose reply cannot be
delivered. -/
def Processor.turns (p : Processor σ) : List Message → σ → List (List (Call σ))
  | [], _ => []
  | m :: ms, s =>
    p.calls m s :: match (p.handle m s).result with
      | .error _ => []
      | .ok _ => p.turns ms (p.handle m s).state

/-- The turns of a batch at each processor that it reaches. -/
def Registry.turnsTo (batch : List Message) : List (Processor σ) → σ → List (List (List (Call σ)))
  | [], _ => []
  | p :: ps, s =>
    p.turns batch s :: match (p.handleBatch batch s).result with
      | .error _ => []
      | .ok _ => turnsTo batch ps (p.handleBatch batch s).state

/-- All calls that are made for message `i` of a batch, in the order of the processors. -/
def Registry.turn (r : Registry σ) (batch : List Message) (s : σ) (i : Nat) : List (Call σ) :=
  (turnsTo batch r.processors s).flatMap fun turns => turns[i]?.getD []

namespace Processor

/-- Handling messages calls what the turns of the messages call, one turn after the other. -/
theorem calls_handleAll (p : Processor σ) (ms : List Message) (t : Traced σ) :
    (p.traced.handleAll ms t).state.calls = t.calls ++ (p.turns ms t.state).flatten := by
  induction ms generalizing t with
  | nil => exact (List.append_nil _).symm
  | cons m ms ih =>
    have hrest := ih (p.traced.handle m t).state
    rw [traced_handle_state] at hrest
    rw [handleAll, turns, List.flatten_cons, Step.bind_apply, traced_handle_result]
    -- behind a message that stops the run there are no turns
    rcases (p.handle m t.state).result with e | outcome
    · change (p.traced.handle m t).state.calls = _
      rw [traced_handle_state, List.flatten_nil, List.append_nil]
    · dsimp only
      rw [Step.bind_apply, traced_handle_state, ← List.append_assoc, ← hrest]
      rcases (p.traced.handleAll ms _).result with e | outcomes
      · rfl
      · rfl

theorem traced_handleBatch_eq (p : Processor σ) (batch : List Message) (t : Traced σ) :
    (p.traced.handleBatch batch t).result = (p.handleBatch batch t.state).result ∧
      (p.traced.handleBatch batch t).state =
        ⟨(p.handleBatch batch t.state).state, t.calls ++ (p.turns batch t.state).flatten⟩ := by
  have hnotes := lift_handleBatch Step.lifts_notes p.alike_traced batch t.state t.calls
  refine ⟨congrArg Ran.result hnotes, ?_⟩
  have hcalls := p.calls_handleAll batch t
  rw [← p.traced.handleBatch_state] at hcalls
  rw [← hcalls]
  exact congrArg (fun run => (⟨run.state.state, (p.traced.handleBatch batch t).state.calls⟩ :
    Traced σ)) hnotes

/-- A turn is that of a message, in whatever state the messages before it left. -/
theorem getElem?_turns {p : Processor σ} {ms : List Message} {s : σ} {i : Nat}
    {turn : List (Call σ)} (h : (p.turns ms s)[i]? = some turn) :
    ∃ m t, ms[i]? = some m ∧ turn = p.calls m t := by
  induction ms generalizing s i with
  | nil => contradiction
  | cons m ms ih =>
    rw [turns] at h
    cases i with
    | zero => exact ⟨m, s, rfl, (Option.some.inj h).symm⟩
    | succ i =>
      rw [List.getElem?_cons_succ] at h
      rcases hresult : (p.handle m s).result with e | outcome
      · rw [hresult] at h
        contradiction
      · rw [hresult] at h
        exact ih h

/-- For one message an action runs at most once, and at most one reply is handed to the sink. -/
theorem calls_once (p : Processor σ) (m : Message) (s : σ) :
    ((p.calls m s).filterMap Call.action?).length ≤ 1 ∧
      ((p.calls m s).filterMap Call.reply?).length ≤ 1 := by
  rcases hmatch : p.match? m with _ | ⟨branch, route⟩
  · rw [(handle_unmatched hmatch s).2.2]
    exact ⟨Nat.zero_le 1, Nat.zero_le 1⟩
  · have hreplies : (((route.traced p.name).execute m).calls s).filterMap Call.reply? = [] :=
      List.filterMap_eq_nil_iff.2 fun _ hc => (Route.mem_calls_execute hc).2.2
    have hactions := Route.length_actions_execute p.name route m s
    -- the route runs at most one action and never the sink, which is called at most once after it
    rcases hreply : conclude (route.execute m s).result with ⟨outcome, _ | reply⟩
    · rw [(handle_unanswered hmatch hreply).2.2, hreplies]
      exact ⟨hactions, Nat.zero_le 1⟩
    · rw [(handle_answered hmatch hreply).2.1, List.filterMap_append, List.filterMap_append,
        hreplies]
      exact ⟨(List.append_nil _).symm ▸ hactions, Nat.le_refl 1⟩

end Processor

/-- The calls of a batch are its turns, one after the other. -/
theorem Registry.calls_eq_turns (r : Registry σ) (batch : List Message) (s : σ) :
    r.calls batch s = (turnsTo batch r.processors s).flatten.flatten := by
  -- stated from any trace, since the later processors add to the calls of the earlier ones
  suffices h : ∀ (ps : List (Processor σ)) (t : Traced σ),
      (dispatchTo batch (ps.map Processor.traced) t).state.calls =
        t.calls ++ (turnsTo batch ps t.state).flatten.flatten from h r.processors (.start s)
  intro ps t
  induction ps generalizing t with
  | nil => exact (List.append_nil _).symm
  | cons p ps ih =>
    obtain ⟨hresult, hstate⟩ := p.traced_handleBatch_eq batch t
    have hrest := ih (p.traced.handleBatch batch t).state
    rw [hstate] at hrest
    rw [List.map_cons, dispatchTo, turnsTo, Step.bind_apply, hresult, hstate, List.flatten_cons,
      List.flatten_append]
    rcases (p.handleBatch batch t.state).result with e | report
    · exact congrArg _ (List.append_nil _).symm
    · dsimp only
      rw [Step.bind_apply, ← List.append_assoc, ← hrest]
      rcases (dispatchTo batch (ps.map Processor.traced) _).result with e | reports
      · rfl
      · rfl

/-! ## Counts -/

namespace Outcome

/-- The message was dropped. -/
def isDropped : Outcome → Bool
  | .dropped => true
  | _ => false

/-- The action ran. -/
def isCompleted : Outcome → Bool
  | .completed _ => true
  | _ => false

/-- A precondition was violated. -/
def isRejected : Outcome → Bool
  | .rejected _ => true
  | _ => false

/-- There was an internal error. -/
def isFailed : Outcome → Bool
  | .failed _ => true
  | _ => false

/-- A reply was sent. -/
def isAnswered : Outcome → Bool
  | .dropped => false
  | .completed acknowledged => acknowledged
  | .rejected _ | .failed _ => true

end Outcome

/-- A report counts the outcomes of each kind. -/
theorem Report.tally_eq (outcomes : List Outcome) :
    tally outcomes =
      { received := outcomes.length
        dropped := outcomes.countP Outcome.isDropped
        completed := outcomes.countP Outcome.isCompleted
        rejected := outcomes.countP Outcome.isRejected
        failed := outcomes.countP Outcome.isFailed
        acknowledged := outcomes.countP Outcome.isAnswered } := by
  induction outcomes with
  | nil => rfl
  | cons o outcomes ih =>
    -- tallying goes from left to right; splitting off the first outcome lets the induction apply
    have hsplit : tally (o :: outcomes) = (tally [o]).merge (tally outcomes) :=
      tally_append [o] outcomes
    have hone : tally [o] = ⟨1, [o].countP Outcome.isDropped, [o].countP Outcome.isCompleted,
        [o].countP Outcome.isRejected, [o].countP Outcome.isFailed,
        [o].countP Outcome.isAnswered⟩ := by
      cases o with
      | completed acknowledged => cases acknowledged <;> rfl
      | _ => rfl
    have hcount : ∀ kind : Outcome → Bool,
        (o :: outcomes).countP kind = [o].countP kind + outcomes.countP kind := fun kind => by
      rw [← List.countP_append, List.singleton_append]
    rw [hsplit, hone, ih, merge]
    simp only [hcount, List.length_cons, Nat.add_comm]

end StreamControl
