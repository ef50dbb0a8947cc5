import StreamControl.Proofs.Dispatch.Trails

/-!
# Accounts of a batch

A dispatch gives counts only.  Its account lists every message with its fates: at each processor that
handled it, what the caller learns and which replies the sink was handed.  Two runs can then be
compared message by message.

`Registry.account` is the account of a batch that is dispatched as a whole, and
`Registry.accountSingly` that of messages dispatched one at a time.  That the account tells what the
dispatcher itself goes by is `Processor.result_handleAll`.
-/

namespace StreamControl

variable {σ : Type}

/-! ## Fates -/

/-- What becomes of a message at a processor: what the caller learns, and the replies that the sink
is handed. -/
structure Fate where
  result : Except Undelivered Outcome
  replies : List Reply
deriving DecidableEq, Repr

/-- The fate of a message that ends with an outcome, its reply delivered if there is one. -/
def Fate.ended (answer : Outcome × Option Reply) : Fate := ⟨.ok answer.1, answer.2.toList⟩

theorem Fate.ended_inj {a b : Outcome × Option Reply} : ended a = ended b ↔ a = b := by
  obtain ⟨outcome, _ | reply⟩ := a
  · obtain ⟨outcome', _ | reply'⟩ := b
    · simp [ended]
    · simp [ended]
  · obtain ⟨outcome', _ | reply'⟩ := b
    · simp [ended]
    · simp [ended]

/-- The fate of a message that a processor does not answer to. -/
def Fate.dropped : Fate := .ended (.dropped, none)

/-- A message with its fates, in the order of the processors. -/
structure Entry where
  message : Message
  fates : List Fate
deriving DecidableEq, Repr

namespace Processor

/-- The fate of a message. -/
def fate (p : Processor σ) (m : Message) (s : σ) : Fate where
  result := (p.handle m s).result
  replies := ((p.calls m s).filterMap Call.reply?).map (·.2)

/-- The fates of messages, up to the first whose reply cannot be delivered. -/
def fates (p : Processor σ) : List Message → σ → List Fate
  | [], _ => []
  | m :: ms, s =>
    p.fate m s :: match (p.handle m s).result with
      | .error _ => []
      | .ok _ => p.fates ms (p.handle m s).state

/-- Handling messages gives what their fates give, one after the other. -/
theorem result_handleAll (p : Processor σ) (ms : List Message) (s : σ) :
    (p.handleAll ms s).result = (p.fates ms s).mapM Fate.result := by
  induction ms generalizing s with
  | nil => rfl
  | cons m ms ih =>
    have hfirst : (p.fate m s).result = (p.handle m s).result := rfl
    rw [handleAll, fates, List.mapM_cons, hfirst, Step.bind_apply]
    -- the rest is handled only if the first message ended, as `mapM` goes on only then
    rcases (p.handle m s).result with e | outcome
    · rfl
    · dsimp only
      rw [Step.bind_apply, ih]
      rcases (p.fates ms (p.handle m s).state).mapM Fate.result with e | outcomes
      · rfl
      · rfl

end Processor

/-! ## Accounts -/

namespace Registry

/-- The fates of a batch at each processor that it reaches. -/
def fatesTo (batch : List Message) : List (Processor σ) → σ → List (List Fate)
  | [], _ => []
  | p :: ps, s =>
    p.fates batch s :: match (p.handleBatch batch s).result with
      | .error _ => []
      | .ok _ => fatesTo batch ps (p.handleBatch batch s).state

/-- Every message of a batch with its fates. -/
def account (r : Registry σ) (batch : List Message) (s : σ) : List Entry :=
  batch.mapIdx fun i m => ⟨m, (fatesTo batch r.processors s).filterMap (·[i]?)⟩

/-! ## One message at a time -/

/-- Adds the reports on two batches, processor by processor. -/
def addReports (a b : List (String × Report)) : List (String × Report) :=
  a.zipWith (fun x y => (x.1, x.2.merge y.2)) b

/-- Dispatches messages one at a time and adds the reports. -/
def dispatchSingly (r : Registry σ) :
    List Message → Step σ (Except Undelivered (List (String × Report)))
  | [] => return .ok (r.names.map (·, .zero))
  | m :: ms => do
    match ← r.dispatch [m] with
    | .error e => return .error e
    | .ok reports =>
      match ← r.dispatchSingly ms with
      | .error e => return .error e
      | .ok others => return .ok (addReports reports others)

/-- Messages that are dispatched one at a time, with their fates. -/
def accountSingly (r : Registry σ) : List Message → σ → List Entry
  | [], _ => []
  | m :: ms, s =>
    r.account [m] s ++ match (r.dispatch [m] s).result with
      | .error _ => []
      | .ok _ => r.accountSingly ms (r.dispatch [m] s).state

end Registry

end StreamControl
