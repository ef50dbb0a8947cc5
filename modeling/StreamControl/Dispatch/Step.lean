import StreamControl.Dispatch.Event

/-!
# Steps

A step works on a state: it gives a result, leaves a state and reports events on the way.  Events
only ever leave a step; no step can look at those before it.  `Step.on` lets a step on a part of the
state work on the whole.
-/

namespace StreamControl

/-- What a step comes to. -/
structure Ran (σ α : Type) where
  result : α
  state : σ
  events : List Event

/-- Work on a state. -/
def Step (σ α : Type) : Type := σ → Ran σ α

namespace Step

variable {σ τ α β : Type}

/-- Gives a result and does nothing. -/
def done (a : α) : Step σ α := fun s => ⟨a, s, []⟩

/-- Goes on with the result of a step. -/
def andThen (x : Step σ α) (f : α → Step σ β) : Step σ β := fun s =>
  let first := x s
  let second := f first.result first.state
  ⟨second.result, second.state, first.events ++ second.events⟩

instance : Monad (Step σ) where
  pure := done
  bind := andThen

theorem pure_apply (a : α) (s : σ) : (pure a : Step σ α) s = ⟨a, s, []⟩ := rfl

theorem bind_apply (x : Step σ α) (f : α → Step σ β) (s : σ) :
    (x >>= f) s =
      ⟨(f (x s).result (x s).state).result, (f (x s).result (x s).state).state,
        (x s).events ++ (f (x s).result (x s).state).events⟩ := rfl

instance : LawfulMonad (Step σ) := .mk' (Step σ)
  (fun x => by
    funext s
    simp [Functor.map, andThen, done])
  (fun a f => by
    funext s
    simp [pure, bind, andThen, done])
  (fun x f g => by
    funext s
    simp [bind, andThen])

/-- Reports an event. -/
def emit (e : Event) : Step σ Unit := fun s => ⟨(), s, [e]⟩

/-- Reports several events. -/
def emitAll (es : List Event) : Step σ Unit := fun s => ⟨(), s, es⟩

/-- Reads something off the state. -/
def view (f : σ → α) : Step σ α := fun s => ⟨f s, s, []⟩

/-- Replaces the state. -/
def update (f : σ → σ) : Step σ Unit := fun s => ⟨(), f s, []⟩

/-- Replaces the state and gives a result. -/
def change (f : σ → α × σ) : Step σ α := fun s => ⟨(f s).1, (f s).2, []⟩

end Step

/-- A part of a state that can be read and replaced. -/
structure Part (σ τ : Type) where
  get : σ → τ
  set : σ → τ → σ

/-- The whole of a state as a part of it. -/
def Part.whole {σ : Type} : Part σ σ := ⟨id, fun _ s => s⟩

/-- Runs a step on a part of the state. -/
def Step.on {σ τ α : Type} (p : Part σ τ) (x : Step τ α) : Step σ α := fun s =>
  let r := x (p.get s)
  ⟨r.result, p.set s r.state, r.events⟩

end StreamControl
