import Mathlib.Data.List.Forall2
import StreamControl.Dispatch.Registry

/-!
# From the parts to the run

The dispatcher works on the state only through validators, actions and sinks; between their calls it
decides and reports.  So a relation between steps that survives putting steps together
(`Step.Lifts`) holds of two runs as soon as it holds of the parts, one by one.  The runs need not be
of the same processors, nor work on the same kind of state.

* The first section takes the functions of the dispatcher apart: what is left to do once the chain,
  the action or the sink gave its result.
* `Processor.Alike` says that two processors differ at most in parts that are related, and
  `Registry.lift_dispatch` carries the relation to whole batches.
-/

namespace StreamControl

variable {σ τ : Type}

/-! ## What is left to do -/

/-- What is left of a chain once one of its validators gave its verdict. -/
def Chain.proceed (name : String) (rest : Step σ (Except Failure Unit)) :
    Except Failure Unit → Step σ (Except Failure Unit)
  | .ok () => rest
  | .error (.refused f) => do
    Step.emit (.validatorRejected name f.code)
    pure (.error (.refused f))
  | .error (.internal e) => pure (.error (.internal e))

theorem Chain.runAll_cons (m : Message) (v : Validator σ) (vs : List (Validator σ)) :
    runAll m (v :: vs) = v.check m >>= proceed v.name (runAll m vs) := by
  rw [runAll]
  refine bind_congr ?_
  rintro (f | ⟨⟩)
  · cases f <;> rfl
  · rfl

/-- What is left of a route once its chain gave its verdict. -/
def Route.proceed (r : Route σ) (m : Message) : Except Failure Unit → Step σ (Except Failure Bool)
  | .ok () => r.action m
  | .error e => pure (.error e)

theorem Route.execute_eq_bind (r : Route σ) (m : Message) :
    r.execute m = r.chain.run m >>= r.proceed m := by
  refine bind_congr ?_
  rintro (e | ⟨⟩)
  · rfl
  · rfl

namespace Processor

/-- Sends the reply to a message, if there is one. -/
def respond (p : Processor σ) (m : Message) (outcome : Outcome) :
    Option Reply → Step σ (Except Undelivered Outcome)
  | none => return .ok outcome
  | some reply => do
    match ← p.deliver m reply with
    | .ok () => return .ok outcome
    | .error e => return .error e

/-- What is left to do once the route of a message gave its result: the event for a failure, and the
reply if there is one. -/
def settle (p : Processor σ) (m : Message) (given : Except Failure Bool) :
    Step σ (Except Undelivered Outcome) :=
  match given with
  | .error e => do
    Step.emit (p.failureEvent m e)
    p.respond m (conclude given).1 (conclude given).2
  | .ok _ => p.respond m (conclude given).1 (conclude given).2

theorem handle_of_unmatched {p : Processor σ} {m : Message} (h : p.match? m = none) :
    p.handle m =
      (do
        Step.emit (.unmatched p.name m.operationOrEmpty)
        return .ok .dropped) := by
  unfold handle
  rw [h]

theorem handle_of_matched {p : Processor σ} {m : Message} {branch : Branch} {route : Route σ}
    (h : p.match? m = some (branch, route)) :
    p.handle m =
      (do
        Step.emit (.validating p.name branch m.requestId m.sessionId)
        p.settle m (← route.execute m)) := by
  unfold handle
  rw [h]
  -- both report a failure first and then look at whether there is a reply
  refine bind_congr fun _ => bind_congr fun given => ?_
  rcases given with e | acknowledge
  · rfl
  · cases acknowledge <;> rfl

end Processor

/-! ## Relations between steps -/

/-- A relation between steps that holds of a run if it holds of the steps that make it up. -/
structure Step.Lifts (rel : (α : Type) → Step σ α → Step τ α → Prop) : Prop where
  pure : ∀ {α : Type} (a : α), rel α (pure a) (pure a)
  emit : ∀ e : Event, rel Unit (Step.emit e) (Step.emit e)
  bind : ∀ {α β : Type} {x : Step σ α} {y : Step τ α} {f : α → Step σ β} {g : α → Step τ β},
    rel α x y → (∀ a, rel β (f a) (g a)) → rel β (x >>= f) (y >>= g)

/-! ## Parts -/

section Parts

variable (rel : (α : Type) → Step σ α → Step τ α → Prop)

/-- Two validators of one name with related checks. -/
def Validator.Alike (v : Validator σ) (w : Validator τ) : Prop :=
  v.name = w.name ∧ ∀ m, rel _ (v.check m) (w.check m)

/-- Two routes to one command with related validators and actions. -/
structure Route.Alike (r : Route σ) (r' : Route τ) : Prop where
  command : r.command = r'.command
  checks : List.Forall₂ (Validator.Alike rel) r.chain.validators r'.chain.validators
  action : ∀ m, rel _ (r.action m) (r'.action m)

/-- Two processors of one name with related routes and sinks. -/
structure Processor.Alike (p : Processor σ) (q : Processor τ) : Prop where
  name : p.name = q.name
  routes : ∀ branch, Option.Rel (Route.Alike rel) (p.route? branch) (q.route? branch)
  sink : ∀ m reply, rel _ (p.sink m reply) (q.sink m reply)

end Parts

/-! ## Runs -/

variable {rel : (α : Type) → Step σ α → Step τ α → Prop}

theorem Chain.lift_proceed (hrel : Step.Lifts rel) (name : String)
    {rest : Step σ (Except Failure Unit)} {rest' : Step τ (Except Failure Unit)}
    (h : rel _ rest rest') (given : Except Failure Unit) :
    rel _ (proceed name rest given) (proceed name rest' given) := by
  rcases given with e | ⟨⟩
  · cases e with
    | refused f => exact hrel.bind (hrel.emit _) fun _ => hrel.pure _
    | internal e => exact hrel.pure _
  · exact h

theorem Chain.lift_runAll (hrel : Step.Lifts rel) {vs : List (Validator σ)}
    {ws : List (Validator τ)} (h : List.Forall₂ (Validator.Alike rel) vs ws) (m : Message) :
    rel _ (runAll m vs) (runAll m ws) := by
  induction h with
  | nil => exact hrel.pure _
  | @cons v w vs ws hfirst _ ih =>
    rw [runAll_cons, runAll_cons, hfirst.1]
    exact hrel.bind (hfirst.2 m) fun given => lift_proceed hrel w.name ih given

theorem Route.lift_proceed (hrel : Step.Lifts rel) {r : Route σ} {r' : Route τ}
    (h : r.Alike rel r') (m : Message) (given : Except Failure Unit) :
    rel _ (r.proceed m given) (r'.proceed m given) := by
  rcases given with e | ⟨⟩
  · exact hrel.pure _
  · exact h.action m

theorem Route.lift_execute (hrel : Step.Lifts rel) {r : Route σ} {r' : Route τ}
    (h : r.Alike rel r') (m : Message) : rel _ (r.execute m) (r'.execute m) := by
  rw [execute_eq_bind, execute_eq_bind]
  exact hrel.bind (Chain.lift_runAll hrel h.checks m) fun given => lift_proceed hrel h m given

namespace Processor

variable {p : Processor σ} {q : Processor τ}

/-- Processors that are alike answer to the same commands. -/
theorem Alike.commands_eq (h : p.Alike rel q) : p.commands = q.commands := by
  -- stated for any two routes, as the start and the stop of a processor need it both
  have hcommand : ∀ {a : Option (Route σ)} {b : Option (Route τ)},
      Option.Rel (Route.Alike rel) a b → a.map (·.command) = b.map (·.command) := by
    intro a b hab
    cases hab with
    | none => rfl
    | some halike => exact congrArg some halike.command
  have hstart := hcommand (h.routes .start)
  have hstop := hcommand (h.routes .stop)
  unfold commands
  rw [show p.start.map (·.command) = q.start.map (·.command) from hstart,
    show p.stop.map (·.command) = q.stop.map (·.command) from hstop]

/-- A message takes the same branch of processors that are alike, or none of either. -/
theorem Alike.match?_cases (h : p.Alike rel q) (m : Message) :
    (p.match? m = none ∧ q.match? m = none) ∨
      ∃ branch r r', p.match? m = some (branch, r) ∧ q.match? m = some (branch, r') ∧
        r.Alike rel r' := by
  unfold match?
  -- the commands alone choose the branch, and they are the same
  rw [h.commands_eq]
  rcases q.commands.branch? m with _ | branch
  · exact .inl ⟨rfl, rfl⟩
  · have hroutes := h.routes branch
    rw [Option.bind_some, Option.bind_some]
    generalize p.route? branch = a at hroutes ⊢
    generalize q.route? branch = b at hroutes ⊢
    cases hroutes with
    | none => exact .inl ⟨rfl, rfl⟩
    | some halike => exact .inr ⟨branch, _, _, rfl, rfl, halike⟩

theorem lift_respond (hrel : Step.Lifts rel) (h : p.Alike rel q) (m : Message) (outcome : Outcome)
    (reply? : Option Reply) : rel _ (p.respond m outcome reply?) (q.respond m outcome reply?) := by
  rcases reply? with _ | reply
  · exact hrel.pure _
  · -- the relation is carried through one bind at a time, to the sink and to the report
    refine hrel.bind ?_ ?_
    · unfold deliver
      rw [h.name]
      refine hrel.bind (h.sink m reply) ?_
      rintro (source | ⟨⟩)
      · exact hrel.pure _
      · exact hrel.pure _
    · rintro (e | ⟨⟩)
      · exact hrel.pure _
      · exact hrel.pure _

theorem lift_settle (hrel : Step.Lifts rel) (h : p.Alike rel q) (m : Message)
    (given : Except Failure Bool) : rel _ (p.settle m given) (q.settle m given) := by
  rcases given with e | acknowledge
  · have hevent : p.failureEvent m e = q.failureEvent m e := by
      cases e <;> simp only [failureEvent, h.name]
    simp only [settle, hevent]
    exact hrel.bind (hrel.emit _) fun _ => lift_respond hrel h m _ _
  · exact lift_respond hrel h m _ _

theorem lift_handle (hrel : Step.Lifts rel) (h : p.Alike rel q) (m : Message) :
    rel _ (p.handle m) (q.handle m) := by
  rcases h.match?_cases m with ⟨hp, hq⟩ | ⟨branch, r, r', hp, hq, halike⟩
  · rw [handle_of_unmatched hp, handle_of_unmatched hq, h.name]
    exact hrel.bind (hrel.emit _) fun _ => hrel.pure _
  · rw [handle_of_matched hp, handle_of_matched hq, h.name]
    exact hrel.bind (hrel.emit _) fun _ =>
      hrel.bind (Route.lift_execute hrel halike m) fun given => lift_settle hrel h m given

theorem lift_handleAll (hrel : Step.Lifts rel) (h : p.Alike rel q) (ms : List Message) :
    rel _ (p.handleAll ms) (q.handleAll ms) := by
  induction ms with
  | nil => exact hrel.pure _
  | cons m ms ih =>
    refine hrel.bind (lift_handle hrel h m) ?_
    rintro (e | outcome)
    · exact hrel.pure _
    · refine hrel.bind ih ?_
      rintro (e | outcomes)
      · exact hrel.pure _
      · exact hrel.pure _

theorem lift_handleBatch (hrel : Step.Lifts rel) (h : p.Alike rel q) (batch : List Message) :
    rel _ (p.handleBatch batch) (q.handleBatch batch) := by
  refine hrel.bind (lift_handleAll hrel h batch) ?_
  rintro (e | outcomes)
  · exact hrel.pure _
  · rw [h.name]
    by_cases hreceived : 0 < (Report.tally outcomes).received
    · simp only [hreceived, if_true]
      exact hrel.bind (hrel.emit _) fun _ => hrel.pure _
    · simp only [hreceived, if_false]
      exact hrel.pure _

end Processor

namespace Registry

theorem lift_dispatchTo (hrel : Step.Lifts rel) (batch : List Message) {ps : List (Processor σ)}
    {qs : List (Processor τ)} (h : List.Forall₂ (Processor.Alike rel) ps qs) :
    rel _ (dispatchTo batch ps) (dispatchTo batch qs) := by
  induction h with
  | nil => exact hrel.pure _
  | @cons p q ps qs hfirst _ ih =>
    rw [dispatchTo, dispatchTo, hfirst.name]
    refine hrel.bind (Processor.lift_handleBatch hrel hfirst batch) ?_
    rintro (e | report)
    · exact hrel.pure _
    · refine hrel.bind ih ?_
      rintro (e | reports)
      · exact hrel.pure _
      · exact hrel.pure _

/-- What is related part by part is related over a whole batch. -/
theorem lift_dispatch (hrel : Step.Lifts rel) {r : Registry σ} {r' : Registry τ}
    (h : List.Forall₂ (Processor.Alike rel) r.processors r'.processors) (batch : List Message) :
    rel _ (r.dispatch batch) (r'.dispatch batch) := lift_dispatchTo hrel batch h

end Registry

end StreamControl
