import StreamControl.Dispatch.Step
import StreamControl.Streams.Basic

/-!
# The streams as the dispatcher sees them

Validators and actions do not touch the streams themselves: they ask a `StreamService`, which may
keep its streams anywhere in the state.  `Streams.service` is the service over streams that are a
part of the state.
-/

namespace StreamControl

/-- What can be asked of the streams, over a state that holds them somehow. -/
structure StreamService (σ : Type) where
  /-- Whether a stream exists. -/
  contains : (stream : String) → Step σ Bool
  /-- Whether a stream exists and a user created it. -/
  isUserDefined : (stream : String) → Step σ Bool
  /-- Whether an operation may be asked of a stream. -/
  admits : (stream operation : String) → Step σ Bool
  /-- Creates a stream with the declared columns of a payload. -/
  create : (stream : String) → List Column → Step σ (Except StreamError Unit)
  /-- Drops a stream with its events. -/
  drop : (stream : String) → Step σ (Except StreamError Unit)
  /-- Sends a payload to a stream. -/
  send : (stream : String) → List Column → Step σ (Except StreamError Unit)

namespace Streams

/-- Keeps the outcome of a change that succeeded, and the state before one that was refused; success
is reported by `event`. -/
def commit (change : Streams → Except StreamError Streams) (event : List Event) :
    Step Streams (Except StreamError Unit) := fun s =>
  match change s with
  | .ok s => ⟨.ok (), s, event⟩
  | .error e => ⟨.error e, s, []⟩

/-- The service over streams that are a part of the state. -/
def service {σ : Type} (p : Part σ Streams) : StreamService σ where
  contains stream := .on p (.view fun s => s.contains stream)
  isUserDefined stream := .on p (.view fun s => s.isUserDefined stream)
  admits stream operation := .on p (.view fun s => s.admits stream operation)
  create stream columns :=
    .on p (commit (·.create stream columns) [.streamCreated stream columns.length])
  drop stream := .on p (commit (·.drop stream) [.streamRemoved stream])
  send stream payload := .on p (commit (·.send stream payload) [])

end Streams

end StreamControl
