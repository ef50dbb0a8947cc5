import StreamControl.Streams.Service

/-!
# Validation

A validator is a named precondition of a message.  A chain runs validators in order and stops at the
first that fails.  It holds at most one validator of each name: of several, the one that was added
first keeps its place.
-/

namespace StreamControl

/-- A named precondition of a message. -/
structure Validator (σ : Type) where
  name : String
  check : Message → Step σ (Except Failure Unit)

/-- Validators with distinct names, in the order in which they run. -/
structure Chain (σ : Type) where
  validators : List (Validator σ)
  distinct : (validators.map (·.name)).Nodup

namespace Chain

variable {σ : Type}

/-- A chain without validators. -/
def empty : Chain σ := ⟨[], List.nodup_nil⟩

/-- The names of the validators, in the order in which they run. -/
def names (c : Chain σ) : List String := c.validators.map (·.name)

/-- Adds a validator at the end, unless its name is taken. -/
def push (c : Chain σ) (v : Validator σ) : Chain σ :=
  if h : v.name ∈ c.names then c
  else
    { validators := c.validators ++ [v]
      distinct := by
        simp only [List.map_append, List.map_cons, List.map_nil]
        exact List.nodup_append.2 ⟨c.distinct, by simp, by
          intro a ha b hb
          simp only [List.mem_singleton] at hb
          subst hb
          rintro rfl
          exact h ha⟩ }

/-- Adds several validators in order. -/
def extend (c : Chain σ) (vs : List (Validator σ)) : Chain σ := vs.foldl push c

/-- The names of the validators that `extend` leaves out, in order. -/
def skipped (c : Chain σ) : List (Validator σ) → List String
  | [] => []
  | v :: vs => if v.name ∈ c.names then v.name :: c.skipped vs else (c.push v).skipped vs

/-- The chain of the given validators. -/
def ofList (vs : List (Validator σ)) : Chain σ := empty.extend vs

/-- Reports each validator that a chain of the given validators leaves out. -/
def skippedEvents (vs : List (Validator σ)) : List Event :=
  ((empty : Chain σ).skipped vs).map .validatorSkipped

/-- Runs validators in order up to the first that fails. -/
def runAll (m : Message) : List (Validator σ) → Step σ (Except Failure Unit)
  | [] => pure (.ok ())
  | v :: vs => do
    match ← v.check m with
    | .ok () => runAll m vs
    | .error (.refused f) =>
      .emit (.validatorRejected v.name f.code)
      pure (.error (.refused f))
    -- an internal error is reported where the message is answered
    | .error (.internal e) => pure (.error (.internal e))

/-- Runs a chain. -/
def run (c : Chain σ) (m : Message) : Step σ (Except Failure Unit) := runAll m c.validators

/-! ### Names -/

@[simp] theorem names_empty : (empty : Chain σ).names = [] := rfl

/-- A validator takes the last place, unless its name is taken. -/
theorem names_push (c : Chain σ) (v : Validator σ) :
    (c.push v).names = if v.name ∈ c.names then c.names else c.names ++ [v.name] := by
  unfold push
  split
  · rfl
  · simp [names]

end Chain

/-! ## Preconditions on streams -/

namespace Validator

variable {σ : Type}

/-- What a message without a stream fails with. -/
def noStream : Failure := .invalid .parserError "stream name is required"

/-- The stream that a message addresses. -/
def addressee (m : Message) : Except Failure String :=
  match m.stream? with
  | some stream => .ok stream
  | none => .error noStream

/-- Passes if a question about the stream of the message is answered with `wanted`. -/
def asking (name : String) (ask : (stream : String) → Message → Step σ Bool) (wanted : Bool)
    (failure : (stream : String) → Message → Failure) : Validator σ where
  name := name
  check m :=
    match addressee m with
    -- without a stream there is nothing to ask, whichever order the validators have
    | .error e => pure (.error e)
    | .ok stream => do
      if (← ask stream m) == wanted then pure (.ok ()) else pure (.error (failure stream m))

/-- The message must name a stream. -/
def namesStream : Validator σ where
  name := "stream_name_not_null"
  check m := pure ((addressee m).map fun _ => ())

/-- The stream must admit the operation at this time. -/
def admitted (streams : StreamService σ) : Validator σ :=
  asking "stream_allowed" (fun stream m => streams.admits stream m.operationOrEmpty) true
    fun stream m => .invalid .streamOperationNotAllowed
      ("operation " ++ m.operationOrEmpty ++ " is not allowed on stream " ++ stream)

/-- The stream must exist. -/
def existing (streams : StreamService σ) : Validator σ :=
  asking "stream_exists" (fun stream _ => streams.contains stream) true
    fun stream _ => .invalid .streamDoesNotExist ("stream " ++ stream ++ " does not exist")

/-- The stream must not exist yet. -/
def unused (streams : StreamService σ) : Validator σ :=
  asking "stream_not_exists" (fun stream _ => streams.contains stream) false
    fun stream _ => .invalid .streamAlreadyExists ("stream " ++ stream ++ " already exists")

/-- A user must have created the stream. -/
def userDefined (streams : StreamService σ) : Validator σ :=
  asking "stream_is_user_defined" (fun stream _ => streams.isUserDefined stream) true
    fun stream _ => .invalid .streamIsNotUserDefined ("stream " ++ stream ++ " is not user defined")

end Validator

end StreamControl
