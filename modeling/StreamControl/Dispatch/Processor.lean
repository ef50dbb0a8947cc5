import StreamControl.Dispatch.Sink
import StreamControl.Dispatch.Validation

/-!
# Processors

A processor answers to a command on each of its branches.  A message that takes a branch runs the
chain of that branch and, if every validator passes, its action; what came of it is sent to the
sink, except when the action succeeded and takes care of the reply itself.  Failures of validators
and actions end one message only.  A reply that cannot be delivered ends the batch.
-/

namespace StreamControl

/-- What a branch does; the result says whether the processor is to send the reply `OK`. -/
abbrev Action (σ : Type) := Message → Step σ (Except Failure Bool)

/-- A branch of a processor. -/
structure Route (σ : Type) where
  command : String
  chain : Chain σ
  action : Action σ

/-- Runs the chain and, if it passes, the action. -/
def Route.execute {σ : Type} (r : Route σ) (m : Message) : Step σ (Except Failure Bool) := do
  match ← r.chain.run m with
  | .error e => return .error e
  | .ok () => r.action m

/-- A named processor with up to two branches and a sink. -/
structure Processor (σ : Type) where
  name : String
  start : Option (Route σ)
  stop : Option (Route σ)
  sink : Sink σ

namespace Processor

variable {σ : Type}

/-! ## Parts -/

/-- The commands that a processor answers to. -/
def commands (p : Processor σ) : Commands := ⟨p.start.map (·.command), p.stop.map (·.command)⟩

/-- The route of a branch. -/
def route? (p : Processor σ) : Branch → Option (Route σ)
  | .start => p.start
  | .stop => p.stop

/-- The chain of a branch. -/
def chain? (p : Processor σ) (branch : Branch) : Option (Chain σ) :=
  (p.route? branch).map (·.chain)

/-- What there is to say about a processor. -/
def summary (p : Processor σ) : ProcessorSummary :=
  ⟨p.name, p.commands, (p.chain? .start).map (·.names), (p.chain? .stop).map (·.names)⟩

/-- The branch that a message takes, with its route. -/
def match? (p : Processor σ) (m : Message) : Option (Branch × Route σ) :=
  (p.commands.branch? m).bind fun branch => (p.route? branch).map fun route => (branch, route)

/-! ## Messages -/

/-- The event for a failure, if it is one that the log tells about. -/
def failureEvent (p : Processor σ) (m : Message) : Failure → Event
  | .refused f => .rejected p.name m.requestId f
  | .internal e => .failed p.name m.requestId m.sessionId e

/-- The outcome of what a route did, and the reply to send, if any. -/
def conclude : Except Failure Bool → Outcome × Option Reply
  | .ok true => (.completed true, some .ok)
  | .ok false => (.completed false, none)
  | .error e => (.ofError e, some e.reply)

/-- Delivers a reply. -/
def deliver (p : Processor σ) (m : Message) (r : Reply) : Step σ (Except Undelivered Unit) := do
  match ← p.sink m r with
  | .ok () => return .ok ()
  | .error source => return .error ⟨p.name, m.sessionId, m.requestId, source⟩

/-- Processes one message. -/
def handle (p : Processor σ) (m : Message) : Step σ (Except Undelivered Outcome) := do
  match p.match? m with
  | none =>
    Step.emit (.unmatched p.name m.operationOrEmpty)
    return .ok .dropped
  | some (branch, route) =>
    Step.emit (.validating p.name branch m.requestId m.sessionId)
    let result ← route.execute m
    -- failures are reported before they are answered
    if let .error e := result then Step.emit (p.failureEvent m e)
    let (outcome, reply?) := conclude result
    match reply? with
    -- an action may take care of its reply
    | none => return .ok outcome
    | some reply =>
      match ← p.deliver m reply with
      | .ok () => return .ok outcome
      | .error e => return .error e

/-! ## Batches -/

/-- Processes messages in order, up to the first whose reply cannot be delivered. -/
def handleAll (p : Processor σ) : List Message → Step σ (Except Undelivered (List Outcome))
  | [] => return .ok []
  | m :: ms => do
    match ← p.handle m with
    | .error e => return .error e
    | .ok outcome =>
      match ← p.handleAll ms with
      | .error e => return .error e
      | .ok outcomes => return .ok (outcome :: outcomes)

/-- Processes a batch and reports what came of it. -/
def handleBatch (p : Processor σ) (batch : List Message) :
    Step σ (Except Undelivered Report) := do
  match ← p.handleAll batch with
  | .error e => return .error e
  | .ok outcomes =>
    let report := Report.tally outcomes
    -- a batch without messages is not worth an event
    if 0 < report.received then Step.emit (.batchProcessed p.name report)
    return .ok report

end Processor

end StreamControl
