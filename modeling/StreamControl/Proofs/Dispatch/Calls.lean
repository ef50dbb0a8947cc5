import StreamControl.Proofs.Dispatch.Runs

/-!
# The calls of a run

A processor calls validators, actions and its sink.  To say which calls are made, in which order and
what each gave, `traced` puts in the place of every part one that also notes its call in the state;
the dispatcher itself stays as it is.

* `Step.Notes` relates a traced step to the plain one: result, inner state and events are the same,
  and calls are only ever added.  It survives putting steps together (`Step.lifts_notes`), so what
  is proved of a traced run holds of the plain run too.
* `Processor.calls` and `Registry.calls` are the calls of one message and of a whole batch.
-/

namespace StreamControl

/-! ## Calls -/

/-- A call that a processor makes, with the message that it is about and what the call gave. -/
inductive Call (σ : Type)
  | validator (processor : String) (m : Message) (v : Validator σ) (gave : Except Failure Unit)
  | action (processor : String) (m : Message) (a : Action σ) (gave : Except Failure Bool)
  | sink (processor : String) (m : Message) (r : Reply) (gave : Except DeliveryError Unit)

namespace Call

variable {σ : Type}

/-- The processor that made a call. -/
def processor : Call σ → String
  | .validator p _ _ _ | .action p _ _ _ | .sink p _ _ _ => p

/-- The message that a call is about. -/
def message : Call σ → Message
  | .validator _ m _ _ | .action _ m _ _ | .sink _ m _ _ => m

/-- The validator that was called, with its verdict. -/
def validator? : Call σ → Option (Validator σ × Except Failure Unit)
  | .validator _ _ v gave => some (v, gave)
  | _ => none

/-- The action that was called. -/
def action? : Call σ → Option (Action σ)
  | .action _ _ a _ => some a
  | _ => none

/-- The reply that was handed to a sink, with the message that it answers. -/
def reply? : Call σ → Option (Message × Reply)
  | .sink _ m r _ => some (m, r)
  | _ => none

/-- Whether a call is a reply that a sink failed to deliver. -/
def isUndelivered : Call σ → Bool
  | .sink _ _ _ (.error _) => true
  | _ => false

end Call

/-- A state together with the calls made so far. -/
structure Traced (σ : Type) where
  state : σ
  calls : List (Call σ)

/-- A state before any call. -/
def Traced.start {σ : Type} (s : σ) : Traced σ := ⟨s, []⟩

/-! ## Steps that note their calls -/

namespace Step

variable {σ α β : Type}

/-- Runs a step and notes it as a call. -/
def noting (call : α → Call σ) (x : Step σ α) : Step (Traced σ) α := fun t =>
  ⟨(x t.state).result, ⟨(x t.state).state, t.calls ++ [call (x t.state).result]⟩,
    (x t.state).events⟩

/-- The calls that a traced step makes in a state. -/
def calls (y : Step (Traced σ) α) (s : σ) : List (Call σ) := (y (.start s)).state.calls

/-- The traced step `y` does what `x` does and adds its calls to those before. -/
def Notes (y : Step (Traced σ) α) (x : Step σ α) : Prop :=
  ∀ s before, y ⟨s, before⟩ = ⟨(x s).result, ⟨(x s).state, before ++ y.calls s⟩, (x s).events⟩

/-- The relation between steps that says that one notes the calls of the other. -/
abbrev Noting (σ α : Type) (y : Step (Traced σ) α) (x : Step σ α) : Prop := y.Notes x

theorem notes_noting (call : α → Call σ) (x : Step σ α) : Notes (x.noting call) x := by
  intro s before
  rfl

theorem notes_pure (a : α) : Notes (pure a : Step (Traced σ) α) (pure a) := by
  intro s before
  simp [pure_apply, calls, Traced.start]

theorem notes_emit (e : Event) : Notes (emit e : Step (Traced σ) Unit) (emit e) := by
  intro s before
  simp [emit, calls, Traced.start]

/-- The calls of two steps in a row are those of the first and then those of the second. -/
theorem calls_bind {y : Step (Traced σ) α} {x : Step σ α} {g : α → Step (Traced σ) β}
    {f : α → Step σ β} (hy : Notes y x) (hg : ∀ a, Notes (g a) (f a)) (s : σ) :
    (y >>= g).calls s = y.calls s ++ (g (x s).result).calls (x s).state := by
  have hfirst := hy s []
  rw [calls, Traced.start, bind_apply, hfirst, hg]
  rfl

theorem notes_bind {y : Step (Traced σ) α} {x : Step σ α} {g : α → Step (Traced σ) β}
    {f : α → Step σ β} (hy : Notes y x) (hg : ∀ a, Notes (g a) (f a)) :
    Notes (y >>= g) (x >>= f) := by
  intro s before
  -- the calls before and those of the first step are all calls before the second
  rw [calls_bind hy hg, bind_apply, bind_apply, hy s before, hg]
  simp

/-- Noting calls survives putting steps together. -/
theorem lifts_notes : Lifts (Noting σ) where
  pure := notes_pure
  emit := notes_emit
  bind := notes_bind

@[simp] theorem calls_noting (call : α → Call σ) (x : Step σ α) (s : σ) :
    (x.noting call).calls s = [call (x s).result] := rfl

end Step

/-! ## Parts that note their calls -/

section Parts

variable {σ : Type}

/-- The validator, noting when it is called by a processor. -/
def Validator.traced (processor : String) (v : Validator σ) : Validator (Traced σ) where
  name := v.name
  check m := (v.check m).noting (.validator processor m v)

/-- The action, noting when it is called by a processor. -/
def Action.traced (processor : String) (a : Action σ) : Action (Traced σ) := fun m =>
  (a m).noting (.action processor m a)

/-- The sink, noting when it is called by a processor. -/
def Sink.traced (processor : String) (sink : Sink σ) : Sink (Traced σ) := fun m r =>
  (sink m r).noting (.sink processor m r)

theorem Validator.map_name_traced (processor : String) (vs : List (Validator σ)) :
    (vs.map (Validator.traced processor)).map (·.name) = vs.map (·.name) := by
  rw [List.map_map]
  rfl

/-- The chain of the traced validators. -/
def Chain.traced (processor : String) (c : Chain σ) : Chain (Traced σ) where
  validators := c.validators.map (Validator.traced processor)
  distinct := by
    rw [Validator.map_name_traced]
    exact c.distinct

/-- The route with its chain and its action traced. -/
def Route.traced (processor : String) (r : Route σ) : Route (Traced σ) :=
  ⟨r.command, r.chain.traced processor, Action.traced processor r.action⟩

/-- The processor with all its parts traced. -/
def Processor.traced (p : Processor σ) : Processor (Traced σ) where
  name := p.name
  start := p.start.map (Route.traced p.name)
  stop := p.stop.map (Route.traced p.name)
  sink := Sink.traced p.name p.sink

/-- The registry with all its processors traced. -/
def Registry.traced (r : Registry σ) : Registry (Traced σ) where
  processors := r.processors.map Processor.traced
  distinct := by
    rw [List.map_map]
    exact r.distinct

/-- The calls of a processor for one message in a state. -/
def Processor.calls (p : Processor σ) (m : Message) (s : σ) : List (Call σ) :=
  (p.traced.handle m).calls s

/-- The calls of a registry for a batch in a state. -/
def Registry.calls (r : Registry σ) (batch : List Message) (s : σ) : List (Call σ) :=
  (r.traced.dispatch batch).calls s

end Parts

/-! ## Traced parts are like the plain ones -/

section Alike

variable {σ : Type}

theorem Validator.alike_traced (processor : String) (vs : List (Validator σ)) :
    List.Forall₂ (Validator.Alike (Step.Noting σ)) (vs.map (Validator.traced processor)) vs := by
  rw [List.forall₂_map_left_iff, List.forall₂_same]
  intro v _
  exact ⟨rfl, fun _ => Step.notes_noting _ _⟩

theorem Route.alike_traced (processor : String) (r : Route σ) :
    (r.traced processor).Alike (Step.Noting σ) r where
  command := rfl
  checks := Validator.alike_traced processor r.chain.validators
  action _ := Step.notes_noting _ _

theorem Processor.route?_traced (p : Processor σ) (branch : Branch) :
    p.traced.route? branch = (p.route? branch).map (Route.traced p.name) := by
  cases branch <;> rfl

theorem Processor.alike_traced (p : Processor σ) : p.traced.Alike (Step.Noting σ) p where
  name := rfl
  routes branch := by
    rw [route?_traced]
    rcases p.route? branch with _ | r
    · exact .none
    · exact .some (r.alike_traced p.name)
  sink _ _ := Step.notes_noting _ _

end Alike

/-! ## Whole runs -/

section Runs

variable {σ : Type}

namespace Chain

theorem notes_runAll (processor : String) (m : Message) (vs : List (Validator σ)) :
    (runAll m (vs.map (Validator.traced processor))).Notes (runAll m vs) :=
  lift_runAll Step.lifts_notes (Validator.alike_traced processor vs) m

theorem notes_run (processor : String) (c : Chain σ) (m : Message) :
    ((c.traced processor).run m).Notes (c.run m) := notes_runAll processor m c.validators

/-- The calls of a chain: its first validator, and the others only if that one passes. -/
theorem calls_runAll_cons (processor : String) (m : Message) (v : Validator σ)
    (vs : List (Validator σ)) (s : σ) :
    (runAll m ((v :: vs).map (Validator.traced processor))).calls s =
      .validator processor m v (v.check m s).result ::
        match (v.check m s).result with
        | .ok () => (runAll m (vs.map (Validator.traced processor))).calls (v.check m s).state
        | .error _ => [] := by
  rw [List.map_cons, runAll_cons]
  refine (Step.calls_bind (Step.notes_noting _ _)
    (lift_proceed Step.lifts_notes v.name (notes_runAll processor m vs)) s).trans ?_
  rw [Step.calls_noting]
  rcases (v.check m s).result with e | ⟨⟩
  · cases e <;> rfl
  · rfl

end Chain

namespace Route

theorem notes_execute (processor : String) (r : Route σ) (m : Message) :
    ((r.traced processor).execute m).Notes (r.execute m) :=
  lift_execute Step.lifts_notes (r.alike_traced processor) m

/-- A route whose chain fails does no more than its chain. -/
theorem execute_of_error {r : Route σ} {m : Message} {s : σ} {e : Failure}
    (h : (r.chain.run m s).result = .error e) :
    (r.execute m s).result = .error e ∧ (r.execute m s).state = (r.chain.run m s).state := by
  rw [execute_eq_bind, Step.bind_apply, h]
  exact ⟨rfl, rfl⟩

/-- A route whose chain passes gives what its action gives in the state that the chain left. -/
theorem execute_of_ok {r : Route σ} {m : Message} {s : σ} (h : (r.chain.run m s).result = .ok ()) :
    (r.execute m s).result = (r.action m (r.chain.run m s).state).result ∧
      (r.execute m s).state = (r.action m (r.chain.run m s).state).state := by
  rw [execute_eq_bind, Step.bind_apply, h]
  exact ⟨rfl, rfl⟩

/-- The calls of a route: those of its chain, and its action only if the chain passes. -/
theorem calls_execute (processor : String) (r : Route σ) (m : Message) (s : σ) :
    ((r.traced processor).execute m).calls s =
      ((r.traced processor).chain.run m).calls s ++
        match (r.chain.run m s).result with
        | .ok () =>
          [.action processor m r.action (r.action m (r.chain.run m s).state).result]
        | .error _ => [] := by
  rw [execute_eq_bind]
  refine (Step.calls_bind (Chain.notes_run processor r.chain m)
    (lift_proceed Step.lifts_notes (r.alike_traced processor) m) s).trans ?_
  rcases (r.chain.run m s).result with e | ⟨⟩
  · rfl
  · rfl

end Route

namespace Processor

/-- Tracing does not change which branch a message takes. -/
theorem match?_traced (p : Processor σ) (m : Message) :
    p.traced.match? m = (p.match? m).map fun (branch, route) => (branch, route.traced p.name) := by
  unfold match?
  rw [p.alike_traced.commands_eq]
  cases p.commands.branch? m with
  | none => rfl
  | some branch => simp [route?_traced, Function.comp_def]

theorem notes_respond (p : Processor σ) (m : Message) (outcome : Outcome) (reply? : Option Reply) :
    (p.traced.respond m outcome reply?).Notes (p.respond m outcome reply?) :=
  lift_respond Step.lifts_notes p.alike_traced m outcome reply?

theorem notes_settle (p : Processor σ) (m : Message) (given : Except Failure Bool) :
    (p.traced.settle m given).Notes (p.settle m given) :=
  lift_settle Step.lifts_notes p.alike_traced m given

/-- Noting the calls of one message changes nothing else. -/
theorem notes_handle (p : Processor σ) (m : Message) : (p.traced.handle m).Notes (p.handle m) :=
  lift_handle Step.lifts_notes p.alike_traced m

/-- A reply is sent in one call, and what the sink gives decides what the caller learns. -/
theorem respond_some (p : Processor σ) (m : Message) (outcome : Outcome) (reply : Reply) (s : σ) :
    let sent := p.sink m reply s
    (p.respond m outcome (some reply) s).state = sent.state ∧
      (p.traced.respond m outcome (some reply)).calls s =
        [.sink p.name m reply sent.result] ∧
      (p.respond m outcome (some reply) s).result =
        match sent.result with
        | .ok () => .ok outcome
        | .error source => .error ⟨p.name, m.sessionId, m.requestId, source⟩ := by
  intro sent
  have hnoted : p.traced.sink m reply (.start s) =
      ⟨sent.result, ⟨sent.state, [.sink p.name m reply sent.result]⟩, sent.events⟩ := rfl
  have hplain : p.sink m reply s = sent := rfl
  unfold respond deliver Step.calls
  simp only [Step.bind_apply, hnoted, hplain]
  -- what the sink gave is looked at twice, in `deliver` and after it
  rcases sent.result with source | ⟨⟩
  · exact ⟨rfl, rfl, rfl⟩
  · exact ⟨rfl, rfl, rfl⟩

/-- Settling a result that is to be answered makes one call, to the sink. -/
theorem settle_some {given : Except Failure Bool} {outcome : Outcome} {reply : Reply}
    (h : conclude given = (outcome, some reply)) (p : Processor σ) (m : Message) (s : σ) :
    let sent := p.sink m reply s
    (p.settle m given s).state = sent.state ∧
      (p.traced.settle m given).calls s = [.sink p.name m reply sent.result] ∧
      (p.settle m given s).result =
        match sent.result with
        | .ok () => .ok outcome
        | .error source => .error ⟨p.name, m.sessionId, m.requestId, source⟩ := by
  -- a failure is reported before the sink is called, and a report is no call
  cases given with
  | error e =>
    have hcalls : (p.traced.settle m (.error e)).calls s =
        (p.traced.respond m outcome (some reply)).calls s := by
      simp only [settle, h]
      exact Step.calls_bind (Step.notes_emit _) (fun _ => notes_respond p m _ _) s
    rw [hcalls]
    simp only [settle, h]
    exact respond_some p m outcome reply s
  | ok acknowledge =>
    simp only [settle, h]
    exact respond_some p m outcome reply s

/-- Settling a result that needs no answer calls nothing. -/
theorem settle_none {given : Except Failure Bool} {outcome : Outcome}
    (h : conclude given = (outcome, none)) (p : Processor σ) (m : Message) (s : σ) :
    (p.settle m given s).result = .ok outcome ∧ (p.settle m given s).state = s ∧
      (p.traced.settle m given).calls s = [] := by
  rcases given with e | acknowledge
  · simp [conclude] at h
  · simp only [settle, h]
    exact ⟨rfl, rfl, rfl⟩

/-! ### One message, call by call -/

theorem handle_unmatched {p : Processor σ} {m : Message} (h : p.match? m = none) (s : σ) :
    (p.handle m s).result = .ok .dropped ∧ (p.handle m s).state = s ∧ p.calls m s = [] := by
  have htraced : p.traced.match? m = none := by rw [match?_traced, h]; rfl
  rw [calls, handle_of_unmatched h, handle_of_unmatched htraced]
  exact ⟨rfl, rfl, rfl⟩

/-- A message that takes a branch is handled by its route, and what that gives is settled in the
state that the route left. -/
theorem handle_matched {p : Processor σ} {m : Message} {branch : Branch} {route : Route σ}
    (h : p.match? m = some (branch, route)) (s : σ) :
    let ran := route.execute m s
    (p.handle m s).result = (p.settle m ran.result ran.state).result ∧
      (p.handle m s).state = (p.settle m ran.result ran.state).state ∧
      p.calls m s = ((route.traced p.name).execute m).calls s ++
        (p.traced.settle m ran.result).calls ran.state := by
  have htraced : p.traced.match? m = some (branch, route.traced p.name) := by
    rw [match?_traced, h]
    rfl
  rw [calls, handle_of_matched h, handle_of_matched htraced]
  refine ⟨rfl, rfl, ?_⟩
  rw [Step.calls_bind (Step.notes_emit _) fun _ =>
      Step.notes_bind (Route.notes_execute p.name route m) fun given => notes_settle p m given,
    Step.calls_bind (Route.notes_execute p.name route m) fun given => notes_settle p m given]
  rfl

/-- A message whose route is to be answered is answered by one call to the sink, in the state that
the route left. -/
theorem handle_answered {p : Processor σ} {m : Message} {branch : Branch} {route : Route σ}
    (h : p.match? m = some (branch, route)) {s : σ} {outcome : Outcome} {reply : Reply}
    (hreply : conclude (route.execute m s).result = (outcome, some reply)) :
    let sent := p.sink m reply (route.execute m s).state
    (p.handle m s).state = sent.state ∧
      p.calls m s = ((route.traced p.name).execute m).calls s ++
        [.sink p.name m reply sent.result] ∧
      (p.handle m s).result =
        match sent.result with
        | .ok () => .ok outcome
        | .error source => .error ⟨p.name, m.sessionId, m.requestId, source⟩ := by
  obtain ⟨hresult, hstate, hcalls⟩ := handle_matched h s
  obtain ⟨hafter, hsent, hlearnt⟩ := settle_some hreply p m (route.execute m s).state
  rw [hresult, hstate, hcalls, hsent]
  exact ⟨hafter, rfl, hlearnt⟩

/-- A message whose route needs no answer ends with the route. -/
theorem handle_unanswered {p : Processor σ} {m : Message} {branch : Branch} {route : Route σ}
    (h : p.match? m = some (branch, route)) {s : σ} {outcome : Outcome}
    (hreply : conclude (route.execute m s).result = (outcome, none)) :
    (p.handle m s).result = .ok outcome ∧ (p.handle m s).state = (route.execute m s).state ∧
      p.calls m s = ((route.traced p.name).execute m).calls s := by
  obtain ⟨hresult, hstate, hcalls⟩ := handle_matched h s
  obtain ⟨hquiet, hkept, hnone⟩ := settle_none hreply p m (route.execute m s).state
  rw [hresult, hstate, hcalls, hnone, List.append_nil]
  exact ⟨hquiet, hkept, rfl⟩

end Processor

/-- Noting the calls of a dispatched batch changes nothing else. -/
theorem Registry.notes_dispatch (r : Registry σ) (batch : List Message) :
    (r.traced.dispatch batch).Notes (r.dispatch batch) := by
  refine lift_dispatch Step.lifts_notes ?_ batch
  change List.Forall₂ (Processor.Alike (Step.Noting σ)) (r.processors.map Processor.traced) r.processors
  rw [List.forall₂_map_left_iff, List.forall₂_same]
  exact fun p _ => p.alike_traced

end Runs

end StreamControl
