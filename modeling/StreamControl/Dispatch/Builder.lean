import StreamControl.Dispatch.Processor

/-!
# Building processors

A processor is put together from parts given in any order.  Each branch begins with the two standing
validators, which no validator added to it can displace or precede; what was added to a branch
without a command is left out.
-/

namespace StreamControl

/-- The parts of a processor given so far. -/
structure Builder (σ : Type) where
  name : String
  streams : StreamService σ
  start : Option (String × Action σ)
  stop : Option (String × Action σ)
  startExtras : List (Validator σ)
  stopExtras : List (Validator σ)
  sink : Sink σ

namespace Builder

variable {σ : Type}

/-- No parts yet; replies are only logged unless another sink is given. -/
def new (name : String) (streams : StreamService σ) : Builder σ :=
  ⟨name, streams, none, none, [], [], Sink.logging⟩

/-- Gives the start branch a command and an action. -/
def onStart (b : Builder σ) (command : String) (action : Action σ) : Builder σ :=
  { b with start := some (command, action) }

/-- Gives the stop branch a command and an action. -/
def onStop (b : Builder σ) (command : String) (action : Action σ) : Builder σ :=
  { b with stop := some (command, action) }

/-- Adds a validator to the start branch. -/
def startValidator (b : Builder σ) (v : Validator σ) : Builder σ :=
  { b with startExtras := b.startExtras ++ [v] }

/-- Adds a validator to the stop branch. -/
def stopValidator (b : Builder σ) (v : Validator σ) : Builder σ :=
  { b with stopExtras := b.stopExtras ++ [v] }

/-- Sets the sink. -/
def withSink (b : Builder σ) (sink : Sink σ) : Builder σ := { b with sink }

/-- The validators with which every branch begins. -/
def standing (b : Builder σ) : List (Validator σ) :=
  -- first in every chain, so their names are never free
  [.namesStream, .admitted b.streams]

/-- The route of a branch, if it was given a command. -/
def route? (b : Builder σ) (branch : Option (String × Action σ)) (extras : List (Validator σ)) :
    Option (Route σ) :=
  branch.map fun (command, action) => ⟨command, .ofList (b.standing ++ extras), action⟩

/-- The processor made of the parts. -/
def processor (b : Builder σ) : Processor σ where
  name := b.name
  start := b.route? b.start b.startExtras
  stop := b.route? b.stop b.stopExtras
  sink := b.sink

/-- The validators of a branch that are left out, if the branch has a command. -/
def skippedEvents (b : Builder σ) (branch : Option (String × Action σ))
    (extras : List (Validator σ)) : List Event :=
  if branch.isSome then Chain.skippedEvents (b.standing ++ extras) else []

/-- Makes the processor and reports it, with the validators that were left out. -/
def build {τ : Type} (b : Builder σ) : Step τ (Processor σ) := do
  -- validators that were left out are reported here, since adding them is silent
  Step.emitAll (b.skippedEvents b.start b.startExtras)
  Step.emitAll (b.skippedEvents b.stop b.stopExtras)
  Step.emit (.processorBuilt b.processor.summary)
  return b.processor

end Builder

end StreamControl
