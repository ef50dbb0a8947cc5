import StreamControl.Proofs.Dispatch.Concatenation

/-!
# What the outcome of a message gives away

Once a message ended, its outcome tells what was sent for it and what the processor reported about it.
There is at most one reply (`Outcome.reply?`).  Of the events that matter (`WARN` and above) the
processor itself reports one for each rejected message and one for each failed message, and no other
(`Outcome.alarm?`).

The events of a run are those of the processor mixed with those of its validators, its actions and its
sink.  To tell them apart, the parts are silenced: `Processor.muted` does the same work and reports
only what the processor says itself (`Step.Quiets`).
-/

namespace StreamControl

variable {σ α β : Type}

/-! ## Changed parts -/

/-- What is made of the validators, the actions and the sink of a processor. -/
structure PartChange (σ : Type) where
  check : Step σ (Except Failure Unit) → Step σ (Except Failure Unit)
  action : Step σ (Except Failure Bool) → Step σ (Except Failure Bool)
  sink : Step σ (Except DeliveryError Unit) → Step σ (Except DeliveryError Unit)

namespace PartChange

/-- The validator with its check changed. -/
def validator (c : PartChange σ) (v : Validator σ) : Validator σ where
  name := v.name
  check m := c.check (v.check m)

theorem map_name_validator (c : PartChange σ) (vs : List (Validator σ)) :
    (vs.map c.validator).map (·.name) = vs.map (·.name) := by
  rw [List.map_map]
  rfl

/-- The chain of the changed validators. -/
def chain (c : PartChange σ) (chain : Chain σ) : Chain σ where
  validators := chain.validators.map c.validator
  distinct := by
    rw [map_name_validator]
    exact chain.distinct

/-- The route with its chain and its action changed. -/
def route (c : PartChange σ) (r : Route σ) : Route σ :=
  ⟨r.command, c.chain r.chain, fun m => c.action (r.action m)⟩

/-- The processor with all its parts changed. -/
def processor (c : PartChange σ) (p : Processor σ) : Processor σ where
  name := p.name
  start := p.start.map c.route
  stop := p.stop.map c.route
  sink m reply := c.sink (p.sink m reply)

theorem route?_processor (c : PartChange σ) (p : Processor σ) (branch : Branch) :
    (c.processor p).route? branch = (p.route? branch).map c.route := by
  cases branch with
  | start => rfl
  | stop => rfl

theorem commands_processor (c : PartChange σ) (p : Processor σ) :
    (c.processor p).commands = p.commands := by
  unfold Processor.commands processor
  dsimp only
  rw [Option.map_map, Option.map_map]
  rfl

/-- A message takes the same branch. -/
theorem match?_processor (c : PartChange σ) (p : Processor σ) (m : Message) :
    (c.processor p).match? m = (p.match? m).map fun (branch, r) => (branch, c.route r) := by
  unfold Processor.match?
  rw [commands_processor]
  rcases p.commands.branch? m with _ | branch
  · rfl
  · simp [route?_processor, Function.comp_def]

end PartChange

/-! ## Silenced parts -/

namespace Step

/-- The step without its events. -/
def muted (x : Step σ α) : Step σ α := fun s => ⟨(x s).result, (x s).state, []⟩

/-- The step `y` does what `x` does and reports some of its events, in the same order. -/
def Quiets (y x : Step σ α) : Prop :=
  ∀ s, (y s).result = (x s).result ∧ (y s).state = (x s).state ∧
    (y s).events.Sublist (x s).events

theorem quiets_muted (x : Step σ α) : x.muted.Quiets x := by
  intro s
  exact ⟨rfl, rfl, List.nil_sublist _⟩

theorem quiets_bind {x y : Step σ α} {f g : α → Step σ β} (hfirst : y.Quiets x)
    (hrest : ∀ a, (g a).Quiets (f a)) : (y >>= g).Quiets (x >>= f) := by
  intro s
  obtain ⟨hresult, hstate, hevents⟩ := hfirst s
  rw [bind_apply, bind_apply, hresult, hstate]
  obtain ⟨hresult', hstate', hevents'⟩ := hrest (x s).result (x s).state
  exact ⟨hresult', hstate', hevents.append hevents'⟩

/-- Leaving events out survives putting steps together. -/
theorem lifts_quiets : Lifts (fun _ (y x : Step σ _) => y.Quiets x) where
  pure _ _ := ⟨rfl, rfl, List.Sublist.refl _⟩
  emit _ _ := ⟨rfl, rfl, List.Sublist.refl _⟩
  bind := quiets_bind

end Step

/-- Parts report nothing. -/
def PartChange.mute : PartChange σ := ⟨Step.muted, Step.muted, Step.muted⟩

namespace Processor

/-- The processor with silent parts. -/
def muted (p : Processor σ) : Processor σ := PartChange.mute.processor p

theorem alike_muted (p : Processor σ) : p.muted.Alike (fun _ y x => y.Quiets x) p where
  name := rfl
  routes branch := by
    rw [muted, PartChange.route?_processor]
    rcases p.route? branch with _ | r
    · exact .none
    · refine .some ⟨rfl, ?_, fun _ => Step.quiets_muted _⟩
      change List.Forall₂ _ (r.chain.validators.map PartChange.mute.validator) r.chain.validators
      rw [List.forall₂_map_left_iff, List.forall₂_same]
      intro v _
      exact ⟨rfl, fun _ => Step.quiets_muted _⟩
  sink _ _ := Step.quiets_muted _

theorem quiets_handle (p : Processor σ) (m : Message) : (p.muted.handle m).Quiets (p.handle m) :=
  lift_handle Step.lifts_quiets p.alike_muted m

theorem quiets_handleAll (p : Processor σ) (ms : List Message) :
    (p.muted.handleAll ms).Quiets (p.handleAll ms) :=
  lift_handleAll Step.lifts_quiets p.alike_muted ms

/-- The events that a processor itself reports about a batch. -/
def ownEvents (p : Processor σ) (batch : List Message) (s : σ) : List Event :=
  (p.muted.handleBatch batch s).events

/-- They are among the events of the run, in order. -/
theorem ownEvents_sublist (p : Processor σ) (batch : List Message) (s : σ) :
    (p.ownEvents batch s).Sublist (p.handleBatch batch s).events :=
  (lift_handleBatch Step.lifts_quiets p.alike_muted batch s).2.2

end Processor

/-! ## Replies and alarms -/

/-- The internal error as far as clients may know it. -/
def InternalError.outermost (e : InternalError) : InternalError := ⟨e.message, []⟩

/-- The event without the inner causes of an internal error. -/
def Event.outermost : Event → Event
  | .failed processor requestId sessionId e => .failed processor requestId sessionId e.outermost
  | e => e

namespace Outcome

/-- The event that matters about a message that ended, without inner causes. -/
def alarm? (processor : String) (m : Message) : Outcome → Option Event
  | .rejected f => some (.rejected processor m.requestId f)
  | .failed detail => some (.failed processor m.requestId m.sessionId ⟨detail, []⟩)
  | _ => none

end Outcome

/-- The replies to the messages of a batch, each with its message. -/
def replied (batch : List Message) (outcomes : List Outcome) : List (Message × Reply) :=
  (batch.zip outcomes).filterMap fun ended => ended.2.reply?.map (ended.1, ·)

/-- The events that matter about the messages of a batch, without inner causes. -/
def alarms (processor : String) (batch : List Message) (outcomes : List Outcome) : List Event :=
  (batch.zip outcomes).filterMap fun ended => ended.2.alarm? processor ended.1

theorem replied_cons (m : Message) (ms : List Message) (outcome : Outcome)
    (outcomes : List Outcome) :
    replied (m :: ms) (outcome :: outcomes) =
      outcome.reply?.toList.map (m, ·) ++ replied ms outcomes := by
  rw [replied, List.zip_cons_cons, List.filterMap_cons]
  rcases outcome.reply? with _ | reply
  · rfl
  · rfl

theorem alarms_cons (processor : String) (m : Message) (ms : List Message) (outcome : Outcome)
    (outcomes : List Outcome) :
    alarms processor (m :: ms) (outcome :: outcomes) =
      (outcome.alarm? processor m).toList ++ alarms processor ms outcomes := by
  rw [alarms, List.zip_cons_cons, List.filterMap_cons]
  rcases outcome.alarm? processor m with _ | event
  · rfl
  · rfl

/-- What matters among two lists of events in a row. -/
theorem Event.atLeast_append (l : Level) (before after : List Event) :
    atLeast l (before ++ after) = atLeast l before ++ atLeast l after := List.filter_append ..

namespace Processor

/-- A chain of silent validators reports nothing that matters. -/
theorem atLeast_runAll_muted (m : Message) (vs : List (Validator σ)) (s : σ) :
    Event.atLeast .warn (Chain.runAll m (vs.map PartChange.mute.validator) s).events = [] := by
  induction vs generalizing s with
  | nil => rfl
  | cons v vs ih =>
    rw [List.map_cons, Chain.runAll_cons, Step.bind_apply, Event.atLeast_append]
    change [] ++ Event.atLeast .warn (Chain.proceed v.name _ (v.check m s).result
      (v.check m s).state).events = []
    rcases (v.check m s).result with e | ⟨⟩
    · -- a refusal is reported below `WARN`, an internal error not by the chain at all
      cases e with
      | refused f => rfl
      | internal e => rfl
    · exact ih _

theorem atLeast_execute_muted (r : Route σ) (m : Message) (s : σ) :
    Event.atLeast .warn ((PartChange.mute.route r).execute m s).events = [] := by
  have hchain : Event.atLeast .warn ((PartChange.mute.route r).chain.run m s).events = [] :=
    atLeast_runAll_muted m r.chain.validators s
  rw [Route.execute_eq_bind, Step.bind_apply, Event.atLeast_append, hchain]
  rcases ((PartChange.mute.route r).chain.run m s).result with e | ⟨⟩
  · rfl
  · rfl

/-- A reply goes out without an event of the processor. -/
theorem events_respond_muted (p : Processor σ) (m : Message) (outcome : Outcome)
    (reply? : Option Reply) (s : σ) : (p.muted.respond m outcome reply? s).events = [] := by
  rcases reply? with _ | reply
  · rfl
  · have hsink : (p.muted.sink m reply s).events = [] := rfl
    unfold respond deliver
    simp only [Step.bind_apply, hsink, List.nil_append]
    rcases (p.muted.sink m reply s).result with source | ⟨⟩
    · rfl
    · rfl

/-- A message that ends does so with the outcome of what its route gave. -/
theorem outcome_of_settle {p : Processor σ} {m : Message} {given : Except Failure Bool} {s : σ}
    {outcome : Outcome} (h : (p.settle m given s).result = .ok outcome) :
    (conclude given).1 = outcome := by
  rcases hreply : conclude given with ⟨ended, _ | reply⟩
  · rw [(settle_none hreply p m s).1] at h
    exact Except.ok.inj h
  · rw [(settle_some hreply p m s).2.2] at h
    rcases hsent : (p.sink m reply s).result with source | ⟨⟩
    · rw [hsent] at h
      contradiction
    · rw [hsent] at h
      exact Except.ok.inj h

/-- A failure is reported, whichever it is, and success is not. -/
theorem alarm_of_settle {p : Processor σ} {m : Message} {given : Except Failure Bool} {s : σ}
    {outcome : Outcome} (h : (p.muted.settle m given s).result = .ok outcome) :
    (Event.atLeast .warn (p.muted.settle m given s).events).map Event.outermost =
      (outcome.alarm? p.name m).toList := by
  rw [← outcome_of_settle h]
  rcases given with e | acknowledge
  · have hevents : (p.muted.settle m (.error e) s).events = [p.failureEvent m e] := by
      simp only [settle, Step.bind_apply, events_respond_muted, List.append_nil]
      cases e with
      | refused f => rfl
      | internal e => rfl
    rw [hevents]
    cases e with
    | refused f => rfl
    | internal e => rfl
  · have hevents : (p.muted.settle m (.ok acknowledge) s).events = [] :=
      events_respond_muted p m _ _ s
    rw [hevents]
    cases acknowledge with
    | true => rfl
    | false => rfl

/-- A processor reports one event that matters about a message that was rejected or failed, and none
about any other. -/
theorem alarm_of_handle {p : Processor σ} {m : Message} {s : σ} {outcome : Outcome}
    (h : (p.handle m s).result = .ok outcome) :
    (Event.atLeast .warn (p.muted.handle m s).events).map Event.outermost =
      (outcome.alarm? p.name m).toList := by
  rw [← (p.quiets_handle m s).1] at h
  rcases hmatch : p.match? m with _ | ⟨branch, r⟩
  · have hmuted : p.muted.match? m = none := by
      rw [muted, PartChange.match?_processor, hmatch]
      rfl
    rw [(handle_unmatched hmuted s).1] at h
    cases h
    rw [handle_of_unmatched hmuted]
    rfl
  · have hmuted : p.muted.match? m = some (branch, PartChange.mute.route r) := by
      rw [muted, PartChange.match?_processor, hmatch]
      rfl
    rw [(handle_matched hmuted s).1] at h
    rw [handle_of_matched hmuted, Step.bind_apply, Step.bind_apply, Event.atLeast_append,
      Event.atLeast_append, atLeast_execute_muted]
    -- of the three parts, only what settles the message reports what matters
    exact alarm_of_settle h

/-- Of a batch that ends, the outcomes tell the replies to all messages and the events that matter
about them, in the order of the messages. -/
theorem told_of_handleAll {p : Processor σ} {ms : List Message} {s : σ} {outcomes : List Outcome}
    (h : (p.handleAll ms s).result = .ok outcomes) :
    (p.turns ms s).flatten.filterMap Call.reply? = replied ms outcomes ∧
      (Event.atLeast .warn (p.muted.handleAll ms s).events).map Event.outermost =
        alarms p.name ms outcomes := by
  induction ms generalizing s outcomes with
  | nil =>
    cases h
    exact ⟨rfl, rfl⟩
  | cons m ms ih =>
    -- the run with a silent chain ends alike; its events are those of the processor itself
    have hmuted := h
    rw [← (p.quiets_handleAll (m :: ms) s).1] at hmuted
    obtain ⟨outcome, others, rfl, hfirst, hrest, -⟩ := handleAll_cons_of_ok h
    obtain ⟨-, -, -, -, -, hevents⟩ := handleAll_cons_of_ok hmuted
    obtain ⟨hreplies, halarms⟩ := ih hrest
    constructor
    · rw [turns, hfirst, List.flatten_cons, List.filterMap_append, replies_calls_of_ok hfirst,
        replied_cons]
      dsimp only
      rw [hreplies]
    · rw [hevents, (p.quiets_handle m s).2.1, Event.atLeast_append, List.map_append,
        alarm_of_handle hfirst, halarms, alarms_cons]

/-- The report on the whole batch does not matter as much. -/
theorem atLeast_ownEvents (p : Processor σ) (batch : List Message) (s : σ) :
    Event.atLeast .warn (p.ownEvents batch s) =
      Event.atLeast .warn (p.muted.handleAll batch s).events := by
  rw [ownEvents, handleBatch, Step.bind_apply, Event.atLeast_append]
  rcases (p.muted.handleAll batch s).result with e | outcomes
  · exact List.append_nil _
  · dsimp only
    split
    · exact List.append_nil _
    · exact List.append_nil _

/-- What a batch comes to if all of its messages end, told by their outcomes. -/
structure Settles (p : Processor σ) (batch : List Message) (outcomes : List Outcome) (s : σ) :
    Prop where
  length : outcomes.length = batch.length
  result : (p.handleAll batch s).result = .ok outcomes
  report : (p.handleBatch batch s).result = .ok (.tally outcomes)
  /-- What the sink is handed. -/
  replies : (p.batchCalls batch s).filterMap Call.reply? = replied batch outcomes
  own : (p.ownEvents batch s).Sublist (p.handleBatch batch s).events
  /-- What the processor itself reports at `WARN` and above, but for inner causes. -/
  alarms : (Event.atLeast .warn (p.ownEvents batch s)).map Event.outermost =
    alarms p.name batch outcomes

theorem settles_of_ok {p : Processor σ} {batch : List Message} {outcomes : List Outcome} {s : σ}
    (h : (p.handleAll batch s).result = .ok outcomes) : p.Settles batch outcomes s := by
  obtain ⟨hreplies, halarms⟩ := told_of_handleAll h
  exact {
    length := length_outcomes h
    result := h
    report := result_handleBatch_of_ok h
    replies := by rw [batchCalls_eq_turns, hreplies]
    own := p.ownEvents_sublist batch s
    alarms := by rw [atLeast_ownEvents, halarms] }

end Processor

end StreamControl
