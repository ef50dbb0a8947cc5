import StreamControl.Dispatch.Processor

/-!
# The registry

A registry holds processors with distinct names in the order in which they were registered.  A batch
is given as a whole to one processor after the other; the first that cannot deliver a reply ends it.
-/

namespace StreamControl

/-- Processors with distinct names, in the order of their registration. -/
structure Registry (σ : Type) where
  processors : List (Processor σ)
  distinct : (processors.map (·.name)).Nodup

/-- A processor of this name is registered already. -/
structure DuplicateProcessor where
  name : String
deriving DecidableEq, Repr

/-- The wording of a refused registration. -/
def DuplicateProcessor.message (e : DuplicateProcessor) : String :=
  "processor " ++ e.name ++ " is already registered"

namespace Registry

variable {σ τ : Type}

/-- No processors. -/
def empty : Registry σ := ⟨[], List.nodup_nil⟩

/-- The names of the processors in order. -/
def names (r : Registry σ) : List String := r.processors.map (·.name)

/-- How many processors there are. -/
def size (r : Registry σ) : Nat := r.processors.length

/-- Whether there are no processors. -/
def isEmpty (r : Registry σ) : Bool := r.processors.isEmpty

/-- The processor with a given name. -/
def find? (r : Registry σ) (name : String) : Option (Processor σ) :=
  r.processors.find? (·.name == name)

/-- Adds a processor at the end, unless its name is taken. -/
def add (r : Registry σ) (p : Processor σ) : Except DuplicateProcessor (Registry σ) :=
  if h : p.name ∈ r.names then .error ⟨p.name⟩
  else
    .ok
      { processors := r.processors ++ [p]
        -- the new name is none of those taken, so the names stay distinct
        distinct := by
          simp only [List.map_append, List.map_cons, List.map_nil]
          exact List.nodup_append.2 ⟨r.distinct, by simp, by
            intro a ha b hb
            simp only [List.mem_singleton] at hb
            subst hb
            rintro rfl
            exact h ha⟩ }

/-- A registration is refused exactly when the name is taken. -/
theorem add_eq_error_iff {r : Registry σ} {p : Processor σ} {e : DuplicateProcessor} :
    r.add p = .error e ↔ p.name ∈ r.names ∧ e = ⟨p.name⟩ := by
  unfold add
  split <;> simp_all [eq_comm]

/-- A registered processor takes the last place. -/
theorem processors_add {r after : Registry σ} {p : Processor σ} (added : r.add p = .ok after) :
    after.processors = r.processors ++ [p] := by
  unfold add at added
  split at added
  · contradiction
  · rw [← Except.ok.inj added]

/-- Adds a processor at the end and reports it; the registry stays the same if the name is taken. -/
def register (r : Registry σ) (p : Processor σ) :
    Step τ (Except DuplicateProcessor Unit × Registry σ) := do
  match r.add p with
  | .error e => return (.error e, r)
  | .ok r =>
    Step.emit (.processorRegistered p.name p.commands)
    return (.ok (), r)

/-- Gives a batch to processors in order and pairs each with its report. -/
def dispatchTo (batch : List Message) :
    List (Processor σ) → Step σ (Except Undelivered (List (String × Report)))
  | [] => return .ok []
  | p :: ps => do
    match ← p.handleBatch batch with
    -- what later processors would have done is left undone
    | .error e => return .error e
    | .ok report =>
      match ← dispatchTo batch ps with
      | .error e => return .error e
      | .ok reports => return .ok ((p.name, report) :: reports)

/-- Gives a batch to every processor. -/
def dispatch (r : Registry σ) (batch : List Message) :
    Step σ (Except Undelivered (List (String × Report))) := dispatchTo batch r.processors

end Registry

end StreamControl
