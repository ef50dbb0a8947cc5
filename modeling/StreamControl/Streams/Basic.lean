import Std.Data.ExtTreeMap
import StreamControl.Failure
import StreamControl.Operation

/-!
# Streams

The streams that exist, by name: each has a schema and the events sent to it, oldest first.  A user
creates and drops streams; the engine registers its own, which admit only a fixed list of
operations.  Every change either succeeds or leaves everything as it was.
-/

namespace StreamControl

/-- An accepted payload. -/
abbrev StreamEvent := List Column

/-- A stream that exists. -/
structure StreamState where
  schema : Schema
  events : List StreamEvent

/-- The streams by name, and the operations that the engine's own streams admit. -/
structure Streams where
  byName : Std.ExtTreeMap String StreamState
  internalOperations : List String

namespace Streams

/-! ## Views -/

/-- The stream with a given name. -/
def get? (s : Streams) (name : String) : Option StreamState := s.byName[name]?

/-- The schema of a stream. -/
def schema? (s : Streams) (name : String) : Option Schema := (s.get? name).map (·.schema)

/-- The events of a stream, oldest first; none if there is no such stream. -/
def events (s : Streams) (name : String) : List StreamEvent :=
  ((s.get? name).map (·.events)).getD []

/-- The names of all streams, in order. -/
def names (s : Streams) : List String := s.byName.keys

/-- Every stream with its name, in the order of the names. -/
def toList (s : Streams) : List (String × StreamState) := s.byName.toList

/-- Whether a stream exists. -/
def contains (s : Streams) (name : String) : Bool := (s.get? name).isSome

/-- Whether a stream exists and a user created it. -/
def isUserDefined (s : Streams) (name : String) : Bool :=
  (s.schema? name).any (·.userDefined)

/-- Whether an operation may be asked of a stream: always, unless the engine owns the stream. -/
def admits (s : Streams) (name operation : String) : Bool :=
  match s.schema? name with
  | none => true
  | some schema => schema.userDefined || s.internalOperations.any (Operation.same operation)

/-! ## Changes -/

/-- No streams. -/
def empty (internalOperations : List String) : Streams := ⟨∅, internalOperations⟩

/-- Puts a stream without events in place, whatever was there before. -/
def install (s : Streams) (schema : Schema) : Streams :=
  { s with byName := s.byName.insert schema.name ⟨schema, []⟩ }

/-- Registers a stream of the engine, whatever was there before. -/
def reserve (s : Streams) (schema : Schema) : Streams :=
  s.install { schema with userDefined := false }

/-- The declarations of a payload, or the first column without a type. -/
def declarations (stream : String) : List Column → Except StreamError (List Declaration)
  | [] => .ok []
  | c :: cs =>
    match c.type with
    | none => .error (.missingColumnType stream c.name)
    | some t =>
      match declarations stream cs with
      | .error e => .error e
      | .ok ds => .ok (⟨c.name, t⟩ :: ds)

/-- The first name in a list that occurred before. -/
def firstRepeated? (seen : List String) : List String → Option String
  | [] => none
  | n :: ns => if n ∈ seen then some n else firstRepeated? (n :: seen) ns

/-- Creates a stream with the declared columns of a payload. -/
def create (s : Streams) (name : String) (columns : List Column) : Except StreamError Streams :=
  match declarations name columns with
  | .error e => .error e
  | .ok defs =>
    -- the columns are looked at before the name, so a stream that exists may be refused for them
    match firstRepeated? [] (defs.map (·.name)) with
    | some column => .error (.columnAlreadyExists name column)
    | none =>
      if s.contains name then .error (.streamAlreadyExists name)
      else .ok (s.install (.user name defs))

/-- Drops a stream with its events. -/
def drop (s : Streams) (name : String) : Except StreamError Streams :=
  if s.contains name then .ok { s with byName := s.byName.erase name }
  else .error (.streamDoesNotExist name)

/-- Sends a payload to a stream.  Of several violations the first is reported. -/
def send (s : Streams) (name : String) (payload : List Column) : Except StreamError Streams :=
  match s.get? name with
  | none => .error (.streamDoesNotExist name)
  | some stream =>
    match stream.schema.violations payload with
    -- nothing is appended unless the whole payload fits
    | violation :: _ => .error (.ofViolation name violation)
    | [] =>
      .ok { s with
        byName := s.byName.insert name { stream with events := stream.events ++ [payload] } }

/-! ## The streams after each change -/

/-- Two collections with the same streams and the same operations for the engine's own are the
same. -/
theorem ext_get? {s t : Streams} (streams : ∀ name, s.get? name = t.get? name)
    (operations : s.internalOperations = t.internalOperations) : s = t := by
  -- what is filed under each name determines the collection
  have byName : s.byName = t.byName := Std.ExtTreeMap.ext_getElem? fun name => streams name
  cases s
  cases t
  cases byName
  cases operations
  rfl

@[simp] theorem get?_empty (internalOperations : List String) (name : String) :
    (empty internalOperations).get? name = none := Std.ExtTreeMap.getElem?_empty

/-- Installing a stream changes the stream of its name and no other. -/
theorem get?_install (s : Streams) (schema : Schema) (name : String) :
    (s.install schema).get? name =
      if schema.name = name then some ⟨schema, []⟩ else s.get? name := by
  simp [install, get?, Std.ExtTreeMap.getElem?_insert]

@[simp] theorem internalOperations_install (s : Streams) (schema : Schema) :
    (s.install schema).internalOperations = s.internalOperations := rfl

/-- A stream of the engine is in place without events after it was registered. -/
theorem get?_reserve (s : Streams) (schema : Schema) (name : String) :
    (s.reserve schema).get? name =
      if schema.name = name then some ⟨{ schema with userDefined := false }, []⟩
      else s.get? name := get?_install s _ name

/-- A stream is created exactly when every column has a type, no column is declared twice and the
name is free. -/
theorem create_eq_ok_iff {s after : Streams} {name : String} {columns : List Column} :
    s.create name columns = .ok after ↔
      ∃ declared, declarations name columns = .ok declared ∧
        firstRepeated? [] (declared.map (·.name)) = none ∧ s.contains name = false ∧
        after = s.install (.user name declared) := by
  unfold create
  constructor
  · intro created
    -- the three tests in their order: types, repeated names, and whether the name is free
    split at created
    · contradiction
    · rename_i declared found
      refine ⟨declared, found, ?_⟩
      split at created
      · contradiction
      · rename_i unrepeated
        split at created
        · contradiction
        · rename_i free
          exact ⟨unrepeated, by simpa using free, (Except.ok.inj created).symm⟩
  · rintro ⟨declared, found, unrepeated, free, rfl⟩
    simp [found, unrepeated, free]

/-- Dropping a stream takes the stream of that name and no other. -/
theorem drop_eq_ok_iff {s after : Streams} {name : String} :
    s.drop name = .ok after ↔
      s.contains name = true ∧ after = { s with byName := s.byName.erase name } := by
  unfold drop
  split
  · rename_i found
    simp [found, eq_comm]
  · rename_i missing
    simp [missing]

theorem get?_drop {s after : Streams} {name : String} (dropped : s.drop name = .ok after)
    (other : String) : after.get? other = if name = other then none else s.get? other := by
  obtain ⟨_, rfl⟩ := drop_eq_ok_iff.1 dropped
  simp [get?, Std.ExtTreeMap.getElem?_erase]

/-- A payload is accepted exactly when the stream exists and the payload fits its schema. -/
theorem send_eq_ok_iff {s after : Streams} {name : String} {payload : List Column} :
    s.send name payload = .ok after ↔
      ∃ stream, s.get? name = some stream ∧ stream.schema.violations payload = [] ∧
        after = { s with
          byName := s.byName.insert name { stream with events := stream.events ++ [payload] } } := by
  unfold send
  constructor
  · intro sent
    split at sent
    · contradiction
    · rename_i stream found
      refine ⟨stream, found, ?_⟩
      split at sent
      · contradiction
      · rename_i fits
        exact ⟨fits, (Except.ok.inj sent).symm⟩
  · rintro ⟨stream, found, fits, rfl⟩
    simp [found, fits]

/-- An accepted payload is the last event of its stream and changes no other stream. -/
theorem get?_send {s after : Streams} {name : String} {payload : List Column}
    (sent : s.send name payload = .ok after) (other : String) :
    after.get? other =
      if name = other then
        (s.get? name).map fun stream => { stream with events := stream.events ++ [payload] }
      else s.get? other := by
  obtain ⟨stream, found, _, rfl⟩ := send_eq_ok_iff.1 sent
  simp [get?, Std.ExtTreeMap.getElem?_insert] at found ⊢
  split <;> simp [found]

end Streams

end StreamControl
