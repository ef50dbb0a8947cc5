import StreamControl.Dispatch.Builder
import StreamControl.Dispatch.Config
import StreamControl.Dispatch.Registry

/-!
# The standard processors

`Standard.definition` creates and drops the streams of users, and acknowledges both.
`Standard.insert` sends an event to a stream and acknowledges only what it rejects.
`Standard.registry` holds the two, in this order, over an engine whose state is its streams and its
coordination store.
-/

namespace StreamControl

/-- The state of an engine. -/
structure Engine where
  streams : Streams
  coordination : TimedStore

namespace Engine

/-- An engine with its own streams only and an empty store. -/
def new (config : Config) (clock : Clock) : Engine := ⟨config.streams, ⟨.empty, clock⟩⟩

/-- The streams of an engine. -/
def streamsPart : Part Engine Streams := ⟨Engine.streams, fun e streams => { e with streams }⟩

/-- The store of an engine. -/
def storePart : Part Engine TimedStore :=
  ⟨Engine.coordination, fun e coordination => { e with coordination }⟩

end Engine

namespace Standard

variable {σ : Type}

/-- An action on the stream of the message: what the streams refuse is a failure, and success is
reported and answered as said. -/
def streamAction (act : (stream : String) → Message → Step σ (Except StreamError Unit))
    (event : (stream : String) → Message → Event) (acknowledge : Bool) : Action σ := fun m =>
  match Validator.addressee m with
  | .error e => return .error e
  | .ok stream => do
    match ← act stream m with
    | .error e => return .error (.ofStreamError e)
    | .ok () =>
      Step.emit (event stream m)
      return .ok acknowledge

/-- The parts of the processor that creates and drops streams. -/
def definitionBuilder (streams : StreamService σ) (sink : Sink σ) : Builder σ :=
  (Builder.new "stream_definition" streams)
    -- a user's stream is created once, and only a user's stream is dropped
    |>.onStart Operation.create (streamAction (fun stream m => streams.create stream m.columns)
      (fun stream m => .streamDefined stream m.columns.length) true)
    |>.startValidator (.unused streams)
    |>.onStop Operation.drop (streamAction (fun stream _ => streams.drop stream)
      (fun stream _ => .streamDropped stream) true)
    |>.stopValidator (.existing streams)
    |>.stopValidator (.userDefined streams)
    |>.withSink sink

/-- Creates and drops streams. -/
def definition (streams : StreamService σ) (sink : Sink σ) : Processor σ :=
  (definitionBuilder streams sink).processor

/-- The sink for rejected events. -/
def insertSink (config : Config) (store : StoreService σ) : Sink σ :=
  -- accepted events are never acknowledged, so only rejected ones reach this sink
  if config.acknowledgeInserts then .storing store config.coordinationRoot else .logging

/-- The parts of the processor that sends events. -/
def insertBuilder (streams : StreamService σ) (config : Config) (store : StoreService σ) :
    Builder σ :=
  (Builder.new "insert" streams)
    |>.onStart Operation.insert (streamAction (fun stream m => streams.send stream m.columns)
      (fun stream m => .eventInserted stream m.columns.length) false)
    |>.startValidator (.existing streams)
    |>.withSink (insertSink config store)

/-- Sends events to streams. -/
def insert (streams : StreamService σ) (config : Config) (store : StoreService σ) : Processor σ :=
  (insertBuilder streams config store).processor

/-- The two standard processors over an engine. -/
def registry (config : Config) : Registry Engine where
  processors :=
    let streams := Streams.service Engine.streamsPart
    let store := TimedStore.service Engine.storePart
    [definition streams (.storing store config.coordinationRoot),
      insert streams config store]
  distinct := by simp [definition, insert, definitionBuilder, insertBuilder, Builder.processor,
    Builder.new, Builder.onStart, Builder.onStop, Builder.startValidator, Builder.stopValidator,
    Builder.withSink]

end Standard

end StreamControl
