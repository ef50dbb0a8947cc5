import StreamControl.Dispatch.Step
import StreamControl.Store.Acknowledgment

/-!
# Sinks

A sink delivers the reply to a message.  One kind of sink writes it to the coordination store, below
a root and by session and request; the other only reports it and stores nothing.
-/

namespace StreamControl

/-- Delivers the reply to a message. -/
abbrev Sink (σ : Type) := Message → Reply → Step σ (Except DeliveryError Unit)

/-- What a sink needs of a store, over a state that holds it somehow. -/
structure StoreService (σ : Type) where
  /-- What time it is, in milliseconds since 1970. -/
  now : Step σ Int64
  /-- Writes a node and gives the one that was there before, or says why it was refused. -/
  put : (path : String) → Bytes → Step σ (Except String (Option Node))

/-! ## Time -/

/-- What a clock shows, reading after reading. -/
structure Clock where
  readings : Nat → Int64
  taken : Nat

/-- A clock that stands still. -/
def Clock.still (now : Int64) : Clock := ⟨fun _ => now, 0⟩

/-- Reads the clock. -/
def Clock.read : Step Clock Int64 := fun c =>
  ⟨c.readings c.taken, { c with taken := c.taken + 1 }, []⟩

/-! ## The store -/

/-- A store together with the clock that dates its nodes. -/
structure TimedStore where
  store : Store
  clock : Clock

namespace TimedStore

/-- Reads the clock. -/
def now : Step TimedStore Int64 :=
  .on ⟨TimedStore.clock, fun t clock => { t with clock }⟩ Clock.read

/-- The store without its clock. -/
def storePart : Part TimedStore Store := ⟨TimedStore.store, fun t store => { t with store }⟩

/-- Writes a node at the time that the clock shows, and gives the node that was there before. -/
def put (path : String) (data : Bytes) : Step TimedStore (Option Node) := do
  let time ← now
  .on storePart (.change fun s => s.put path data time)

/-- Removes the node at a path, and gives the node that was there before. -/
def remove (path : String) : Step TimedStore (Option Node) :=
  .on storePart (.change fun s => s.remove path)

/-- Removes every node. -/
def clear : Step TimedStore Unit := .on storePart (.update fun _ => .empty)

/-- The service over a store that is a part of the state. -/
def service {σ : Type} (p : Part σ TimedStore) : StoreService σ where
  now := .on p now
  put path data := .on p (.ok <$> put path data)

end TimedStore

namespace Sink

variable {σ : Type}

/-- Writes the reply to the store, at the path of the message below a root. -/
def storing (store : StoreService σ) (root : String) : Sink σ := fun m r => do
  let path := Acknowledgment.path root m
  let time ← store.now
  match ← store.put path (Acknowledgment.new m r time).json with
  | .error cause => return .error (.store path cause)
  | .ok _ =>
    Step.emit (.acknowledgmentWritten path r.code)
    return .ok ()

/-- Reports the reply and stores nothing. -/
def logging : Sink σ := fun m r => do
  Step.emit (.acknowledgmentNotStored m.requestId m.sessionId r)
  return .ok ()

end Sink

end StreamControl
