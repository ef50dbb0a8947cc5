import StreamControl.Dispatch.Standard
import StreamControl.Proofs.Dispatch.Alarms

/-!
# Inner causes of internal errors stay inside

An internal error carries its inner causes with it, from a stream service through an action or a
validator up to the processor, which writes the whole chain to the log and tells the client the
outermost text only.  So inner causes cannot be learnt from outcomes, replies, reports or the state.

The argument compares a processor with itself, redacted: all its parts forget inner causes
(`PartChange.redact`).  Redacting the parts is as good as redacting the run
(`Processor.handleBatch_redacted`): neither results nor states are affected, and events lose inner
causes only.  Processors that differ in inner causes only are the same once redacted
(`Processor.SameButCauses.redacted_eq`), which gives the comparison of any two runs.
-/

namespace StreamControl

variable {σ α β : Type}

/-! ## Failures and events without inner causes -/

/-- The failure as far as clients may know it. -/
def Failure.outermost : Failure → Failure
  | .refused f => .refused f
  | .internal e => .internal e.outermost

/-- What was given, as far as clients may know it. -/
def outermost (given : Except Failure α) : Except Failure α := given.mapError Failure.outermost

/-- Two events are the same, or both are about an error and differ in the field that tells the error
at most. -/
def Event.SameButError (a b : Event) : Prop :=
  a = b ∨ a.level = .error ∧ b.level = .error ∧ a.message = b.message ∧
    a.fields.filter (·.1 ≠ "error") = b.fields.filter (·.1 ≠ "error")

/-- Inner causes show in one field of one kind of event. -/
theorem Event.sameButError_of_outermost {a b : Event} (h : a.outermost = b.outermost) :
    a.SameButError b := by
  -- only failures tell causes: two of them agree but for that field, two others are equal
  cases a with
  | failed processor requestId sessionId e =>
    cases b with
    | failed processor' requestId' sessionId' e' =>
      obtain ⟨rfl, rfl, rfl, -⟩ := Event.failed.inj h
      exact .inr ⟨rfl, rfl, rfl, rfl⟩
    | _ => cases h
  | _ =>
    cases b with
    | failed => cases h
    | _ => exact .inl h

/-! ## Redacted runs -/

namespace Step

/-- The step with its result redacted and its events without inner causes. -/
def redacted (redact : α → α) (x : Step σ α) : Step σ α := fun s =>
  ⟨redact (x s).result, (x s).state, (x s).events.map Event.outermost⟩

/-- Two steps in a row are redacted one after the other. -/
theorem redacted_bind {redact : α → α} {redact' : β → β} {x : Step σ α} {f g : α → Step σ β}
    (h : ∀ a, (f a).redacted redact' = g (redact a)) :
    (x >>= f).redacted redact' = x.redacted redact >>= g := by
  funext s
  have hrest := congrFun (h (x s).result) (x s).state
  rw [bind_apply]
  unfold redacted at hrest ⊢
  dsimp only
  rw [← hrest, bind_apply, List.map_append]

/-- An event that comes first is told without inner causes. -/
theorem redacted_emit_bind (redact : α → α) (e : Event) (x : Step σ α) :
    (emit e >>= fun _ => x).redacted redact = emit e.outermost >>= fun _ => x.redacted redact := rfl

end Step

/-- Parts forget inner causes. -/
def PartChange.redact : PartChange σ :=
  ⟨Step.redacted outermost, Step.redacted outermost, Step.redacted id⟩

/-- A chain of redacted validators runs like the chain, redacted. -/
theorem Chain.runAll_redacted (m : Message) (vs : List (Validator σ)) :
    runAll m (vs.map PartChange.redact.validator) = (runAll m vs).redacted outermost := by
  induction vs with
  | nil => rfl
  | cons v vs ih =>
    rw [List.map_cons, runAll_cons, runAll_cons, ih]
    -- a refusal has no causes, an internal error loses them whether it is told now or later
    refine (Step.redacted_bind ?_).symm
    rintro (e | ⟨⟩)
    · cases e with
      | refused f => rfl
      | internal e => rfl
    · rfl

theorem Route.execute_redacted (r : Route σ) (m : Message) :
    (PartChange.redact.route r).execute m = (r.execute m).redacted outermost := by
  have hchain : (PartChange.redact.route r).chain.run m = (r.chain.run m).redacted outermost :=
    Chain.runAll_redacted m r.chain.validators
  rw [execute_eq_bind, execute_eq_bind, hchain]
  refine (Step.redacted_bind ?_).symm
  rintro (e | ⟨⟩)
  · rfl
  · rfl

namespace Processor

/-- The processor with parts that forget inner causes. -/
def redacted (p : Processor σ) : Processor σ := PartChange.redact.processor p

variable (p : Processor σ)

theorem deliver_redacted (m : Message) (reply : Reply) :
    p.redacted.deliver m reply = (p.deliver m reply).redacted id := by
  unfold deliver
  refine (Step.redacted_bind ?_).symm
  rintro (source | ⟨⟩)
  · rfl
  · rfl

theorem respond_redacted (m : Message) (outcome : Outcome) (reply? : Option Reply) :
    p.redacted.respond m outcome reply? = (p.respond m outcome reply?).redacted id := by
  rcases reply? with _ | reply
  · rfl
  · unfold respond
    dsimp only
    rw [deliver_redacted]
    refine (Step.redacted_bind ?_).symm
    rintro (e | ⟨⟩)
    · rfl
    · rfl

/-- What a client learns does not depend on inner causes. -/
theorem conclude_outermost (given : Except Failure Bool) :
    conclude (outermost given) = conclude given := by
  rcases given with e | acknowledge
  · cases e with
    | refused f => rfl
    | internal e => rfl
  · rfl

/-- What the log is told does, in the one event for internal errors. -/
theorem failureEvent_redacted (m : Message) (e : Failure) :
    p.redacted.failureEvent m e.outermost = (p.failureEvent m e).outermost := by
  cases e with
  | refused f => rfl
  | internal e => rfl

theorem settle_redacted (m : Message) (given : Except Failure Bool) :
    p.redacted.settle m (outermost given) = (p.settle m given).redacted id := by
  have hconclude := conclude_outermost given
  rcases given with e | acknowledge
  · change (Step.emit (p.redacted.failureEvent m e.outermost) >>= fun _ =>
      p.redacted.respond m (conclude (outermost (.error e))).1 _) = _
    rw [hconclude, respond_redacted, failureEvent_redacted]
    rfl
  · exact p.respond_redacted m _ _

theorem handle_redacted (m : Message) : p.redacted.handle m = (p.handle m).redacted id := by
  -- commands are no part of what is redacted, so both take the same branch or none
  rcases hmatch : p.match? m with _ | ⟨branch, r⟩
  · have hredacted : p.redacted.match? m = none := by
      rw [redacted, PartChange.match?_processor, hmatch]
      rfl
    rw [handle_of_unmatched hmatch, handle_of_unmatched hredacted]
    rfl
  · have hredacted : p.redacted.match? m = some (branch, PartChange.redact.route r) := by
      rw [redacted, PartChange.match?_processor, hmatch]
      rfl
    have hgiven : (r.execute m >>= p.settle m).redacted id =
        (r.execute m).redacted outermost >>= p.redacted.settle m :=
      Step.redacted_bind fun given => (p.settle_redacted m given).symm
    rw [handle_of_matched hmatch, handle_of_matched hredacted, Route.execute_redacted,
      Step.redacted_emit_bind, hgiven]
    rfl

theorem handleAll_redacted (ms : List Message) :
    p.redacted.handleAll ms = (p.handleAll ms).redacted id := by
  induction ms with
  | nil => rfl
  | cons m ms ih =>
    rw [handleAll, handleAll, handle_redacted, ih]
    refine (Step.redacted_bind ?_).symm
    rintro (e | outcome)
    · rfl
    · refine Step.redacted_bind ?_
      rintro (e | outcomes)
      · rfl
      · rfl

/-- Without inner causes in its parts, a processor gets through a batch as with them: only the events
lack them. -/
theorem handleBatch_redacted (batch : List Message) :
    p.redacted.handleBatch batch = (p.handleBatch batch).redacted id := by
  unfold handleBatch
  rw [handleAll_redacted]
  refine (Step.redacted_bind ?_).symm
  rintro (e | outcomes)
  · rfl
  · by_cases hreceived : 0 < (Report.tally outcomes).received
    · simp only [id, hreceived, if_true]
      rfl
    · simp only [id, hreceived, if_false]
      rfl

end Processor

/-! ## Two runs -/

/-- Two steps do the same, up to the inner causes of the internal errors that they give. -/
def Step.SameButCauses (x y : Step σ (Except Failure α)) : Prop :=
  ∀ s, outermost (x s).result = outermost (y s).result ∧ (x s).state = (y s).state ∧
    (x s).events = (y s).events

/-- Two routes to one command: their validators, one by one and by the same names, and their actions
do the same up to inner causes. -/
structure Route.SameButCauses (r r' : Route σ) : Prop where
  command : r.command = r'.command
  checks : List.Forall₂ (fun v w => v.name = w.name ∧ ∀ m, (v.check m).SameButCauses (w.check m))
    r.chain.validators r'.chain.validators
  action : ∀ m, (r.action m).SameButCauses (r'.action m)

/-- Two processors of one name with one sink, whose routes do the same up to inner causes. -/
structure Processor.SameButCauses (p q : Processor σ) : Prop where
  name : p.name = q.name
  routes : ∀ branch, Option.Rel Route.SameButCauses (p.route? branch) (q.route? branch)
  sink : p.sink = q.sink

theorem Step.SameButCauses.redacted_eq {x y : Step σ (Except Failure α)} (h : x.SameButCauses y) :
    x.redacted outermost = y.redacted outermost := by
  funext s
  obtain ⟨hresult, hstate, hevents⟩ := h s
  unfold redacted
  rw [hresult, hstate, hevents]

theorem Chain.map_redact_eq {vs ws : List (Validator σ)}
    (h : List.Forall₂ (fun v w => v.name = w.name ∧ ∀ m, (v.check m).SameButCauses (w.check m))
      vs ws) : vs.map PartChange.redact.validator = ws.map PartChange.redact.validator := by
  induction h with
  | nil => rfl
  | @cons v w _ _ hone _ ih =>
    have hcheck : (fun m => (v.check m).redacted outermost) =
        fun m => (w.check m).redacted outermost := funext fun m => (hone.2 m).redacted_eq
    have hfirst : PartChange.redact.validator v = PartChange.redact.validator w :=
      congrArg₂ Validator.mk hone.1 hcheck
    rw [List.map_cons, List.map_cons, hfirst, ih]

theorem Route.SameButCauses.redacted_eq {r r' : Route σ} (h : r.SameButCauses r') :
    PartChange.redact.route r = PartChange.redact.route r' := by
  have haction : (fun m => (r.action m).redacted outermost) =
      fun m => (r'.action m).redacted outermost := funext fun m => (h.action m).redacted_eq
  have hchain : PartChange.redact.chain r.chain = PartChange.redact.chain r'.chain := by
    unfold PartChange.chain
    simp only [Chain.map_redact_eq h.checks]
  unfold PartChange.route
  rw [h.command, hchain]
  exact congrArg (Route.mk _ _) haction

/-- Processors that differ in inner causes only are the same once redacted. -/
theorem Processor.SameButCauses.redacted_eq {p q : Processor σ} (h : p.SameButCauses q) :
    p.redacted = q.redacted := by
  have hroutes : ∀ {a b : Option (Route σ)}, Option.Rel Route.SameButCauses a b →
      a.map PartChange.redact.route = b.map PartChange.redact.route := by
    intro a b hab
    cases hab with
    | none => rfl
    | some hsame => exact congrArg some hsame.redacted_eq
  have hstart : p.start.map PartChange.redact.route = q.start.map PartChange.redact.route :=
    hroutes (h.routes .start)
  have hstop : p.stop.map PartChange.redact.route = q.stop.map PartChange.redact.route :=
    hroutes (h.routes .stop)
  unfold redacted PartChange.processor
  rw [h.name, h.sink, hstart, hstop]

/-! ## Stream services -/

/-- What the streams refuse, without the inner causes of an internal error. -/
def StreamError.outermost : StreamError → StreamError
  | .internal e => .internal e.outermost
  | e => e

/-- Two steps on the streams do the same, up to the inner causes of the internal errors with which they
refuse. -/
def Step.RefusesAlike (x y : Step σ (Except StreamError α)) : Prop :=
  ∀ s, (x s).result.mapError StreamError.outermost = (y s).result.mapError StreamError.outermost ∧
    (x s).state = (y s).state ∧ (x s).events = (y s).events

/-- Two services answer and change the same, up to the inner causes of internal errors. -/
structure StreamService.SameButCauses (a b : StreamService σ) : Prop where
  contains : a.contains = b.contains
  isUserDefined : a.isUserDefined = b.isUserDefined
  admits : a.admits = b.admits
  create : ∀ stream columns, (a.create stream columns).RefusesAlike (b.create stream columns)
  drop : ∀ stream, (a.drop stream).RefusesAlike (b.drop stream)
  send : ∀ stream payload, (a.send stream payload).RefusesAlike (b.send stream payload)

/-- What the streams refuse becomes a failure of the action, inner causes included. -/
theorem Failure.outermost_ofStreamError (e : StreamError) :
    (ofStreamError e).outermost = ofStreamError e.outermost := by
  cases e with
  | _ => rfl

theorem Step.sameButCauses_of_eq {x y : Step σ (Except Failure α)} (h : x = y) :
    x.SameButCauses y := by
  intro s
  rw [h]
  exact ⟨rfl, rfl, rfl⟩

namespace Standard

theorem sameButCauses_streamAction
    {act act' : (stream : String) → Message → Step σ (Except StreamError Unit)}
    (h : ∀ stream m, (act stream m).RefusesAlike (act' stream m))
    (event : (stream : String) → Message → Event) (acknowledge : Bool) (m : Message) :
    (streamAction act event acknowledge m).SameButCauses
      (streamAction act' event acknowledge m) := by
  unfold streamAction
  rcases Validator.addressee m with e | stream
  · exact Step.sameButCauses_of_eq rfl
  · intro s
    obtain ⟨hresult, hstate, hevents⟩ := h stream m s
    dsimp only
    rw [Step.bind_apply, Step.bind_apply, hstate, hevents]
    -- agreement on results rules out that one of the two succeeds alone
    generalize (act stream m s).result = given at hresult ⊢
    generalize (act' stream m s).result = given' at hresult ⊢
    rcases given with e | ⟨⟩
    · rcases given' with e' | ⟨⟩
      · -- losing the causes commutes with the translation of the error
        have houtermost : e.outermost = e'.outermost := Except.error.inj hresult
        have hfailures : (Failure.ofStreamError e).outermost =
            (Failure.ofStreamError e').outermost := by
          rw [Failure.outermost_ofStreamError, Failure.outermost_ofStreamError, houtermost]
        exact ⟨congrArg Except.error hfailures, rfl, rfl⟩
      · contradiction
    · rcases given' with e' | ⟨⟩
      · contradiction
      · exact ⟨rfl, rfl, rfl⟩

section Services

variable {a b : StreamService σ}

/-- A route on the streams differs in its action at most, if its validators are the same. -/
theorem sameButCauses_route {command : String} {vs ws : List (Validator σ)} {act act' : Action σ}
    (hchecks : vs = ws) (haction : ∀ m, (act m).SameButCauses (act' m)) :
    Route.SameButCauses ⟨command, .ofList vs, act⟩ ⟨command, .ofList ws, act'⟩ := by
  refine ⟨rfl, ?_, haction⟩
  rw [hchecks]
  exact List.forall₂_same.2 fun v _ => ⟨rfl, fun _ => Step.sameButCauses_of_eq rfl⟩

theorem sameButCauses_definition (h : a.SameButCauses b) (sink : Sink σ) :
    (definition a sink).SameButCauses (definition b sink) where
  name := rfl
  routes branch := by
    cases branch with
    | start =>
      refine .some (sameButCauses_route ?_ (sameButCauses_streamAction (fun _ _ => h.create _ _) _ _))
      simp only [definitionBuilder, Builder.standing, Builder.new, Builder.onStart, Builder.onStop,
        Builder.startValidator, Builder.stopValidator, Builder.withSink, Validator.admitted,
        Validator.unused, h.admits, h.contains]
    | stop =>
      refine .some (sameButCauses_route ?_ (sameButCauses_streamAction (fun _ _ => h.drop _) _ _))
      simp only [definitionBuilder, Builder.standing, Builder.new, Builder.onStart, Builder.onStop,
        Builder.startValidator, Builder.stopValidator, Builder.withSink, Validator.admitted,
        Validator.existing, Validator.userDefined, h.admits, h.contains, h.isUserDefined]
  sink := rfl

theorem sameButCauses_insert (h : a.SameButCauses b) (config : Config) (store : StoreService σ) :
    (insert a config store).SameButCauses (insert b config store) where
  name := rfl
  routes branch := by
    cases branch with
    | start =>
      refine .some (sameButCauses_route ?_ (sameButCauses_streamAction (fun _ _ => h.send _ _) _ _))
      simp only [insertBuilder, Builder.standing, Builder.new, Builder.onStart,
        Builder.startValidator, Builder.withSink, Validator.admitted, Validator.existing, h.admits,
        h.contains]
    | stop => exact .none
  sink := rfl

end Services

end Standard

/-! ## Main result -/

/-- A sink that delivers every reply. -/
def Sink.NeverFails (sink : Sink σ) : Prop := ∀ m reply s, (sink m reply s).result = .ok ()

namespace Processor

/-- **Inner causes of internal errors never reach clients.**  Let two processors do the same except that
their validators and actions fail with internal errors of different inner causes, and let their sink
never fail.  Given a batch in the same state, all messages end alike, with the same replies, the same
report and the same state afterwards.  Their events are the same but for the fields that tell errors;
what each processor itself reports at `WARN` and above is one event for each rejected message, with the
code and the detail of its reply, and one for each failed message, in the order of the messages. -/
theorem causes_stay_inside {p q : Processor σ} (h : p.SameButCauses q) (hsink : p.sink.NeverFails)
    (batch : List Message) (s : σ) :
    ∃ outcomes, p.Settles batch outcomes s ∧ q.Settles batch outcomes s ∧
      (p.handleBatch batch s).state = (q.handleBatch batch s).state ∧
      List.Forall₂ Event.SameButError (p.handleBatch batch s).events
        (q.handleBatch batch s).events := by
  have hdelivers : p.sink.Delivers fun _ : σ => () := fun m reply t => ⟨hsink m reply t, rfl⟩
  obtain ⟨outcomes, -, hran⟩ := exists_outcomes hdelivers batch s
  -- redacting commutes with handling, and redacted the two processors are one
  have hredacted := h.redacted_eq
  have hall : (p.handleAll batch).redacted id = (q.handleAll batch).redacted id := by
    rw [← handleAll_redacted, ← handleAll_redacted, hredacted]
  have hbatch : (p.handleBatch batch).redacted id = (q.handleBatch batch).redacted id := by
    rw [← handleBatch_redacted, ← handleBatch_redacted, hredacted]
  have hran' : (q.handleAll batch s).result = .ok outcomes := by
    rw [← hran]
    exact (congrArg Ran.result (congrFun hall s)).symm
  have hstate : (p.handleBatch batch s).state = (q.handleBatch batch s).state := by
    have hboth := congrArg Ran.state (congrFun hbatch s)
    exact hboth
  refine ⟨outcomes, settles_of_ok hran, settles_of_ok hran', hstate, ?_⟩
  have hevents : (p.handleBatch batch s).events.map Event.outermost =
      (q.handleBatch batch s).events.map Event.outermost :=
    congrArg Ran.events (congrFun hbatch s)
  -- equal redacted events are, one by one, events that differ in causes at most
  rw [← List.forall₂_eq_eq_eq, List.forall₂_map_left_iff, List.forall₂_map_right_iff] at hevents
  exact hevents.imp fun _ _ => Event.sameButError_of_outermost

/-- The storage behind the streams fails: why it failed is in the log of either run, the client learns
that it failed. -/
theorem causes_stay_inside_storage :
    let store := TimedStore.service (.whole : Part TimedStore TimedStore)
    let sink := Sink.storing store "/acks"
    let service (causes : List String) : StreamService TimedStore :=
      { contains := fun _ => pure false
        isUserDefined := fun _ => pure false
        admits := fun _ _ => pure true
        create := fun _ _ => pure (.error (.internal ⟨"storage failed", causes⟩))
        drop := fun _ => pure (.ok ())
        send := fun _ _ => pure (.ok ()) }
    let p := Standard.definition (service ["disk full"]) sink
    let q := Standard.definition (service ["node 3 is down", "timeout"]) sink
    let batch : List Message := [.addressed "CREATE" "orders", .addressed "DROP" "users"]
    let s : TimedStore := ⟨.empty, .still 0⟩
    let told (r : Processor TimedStore) :=
      (Event.atLeast .error (r.handleBatch batch s).events).map fun e => e.fields.getLast?
    p.SameButCauses q ∧ p.sink.NeverFails ∧
      (∃ outcomes, p.Settles batch outcomes s ∧ q.Settles batch outcomes s ∧
        (p.handleBatch batch s).state = (q.handleBatch batch s).state ∧
        List.Forall₂ Event.SameButError (p.handleBatch batch s).events
          (q.handleBatch batch s).events) ∧
      (p.batchCalls batch s).filterMap (fun c => c.reply?.map (·.2)) =
        [.because .generalError "storage failed",
          .because .streamDoesNotExist "stream users does not exist"] ∧
      told p = [some ("error", "storage failed: disk full")] ∧
      told q = [some ("error", "storage failed: node 3 is down: timeout")] := by
  intro store sink service p q batch s told
  have hservices : (service ["disk full"]).SameButCauses (service ["node 3 is down", "timeout"]) :=
    { contains := rfl
      isUserDefined := rfl
      admits := rfl
      create := fun _ _ _ => ⟨rfl, rfl, rfl⟩
      drop := fun _ _ => ⟨rfl, rfl, rfl⟩
      send := fun _ _ _ => ⟨rfl, rfl, rfl⟩ }
  have hsame : p.SameButCauses q := Standard.sameButCauses_definition hservices sink
  have hsink : p.sink.NeverFails := fun _ _ _ => rfl
  refine ⟨hsame, hsink, causes_stay_inside hsame hsink batch s, ?_, ?_, ?_⟩
  · dsimp only [p, batch, s, service, sink, store]
    decide +kernel
  · dsimp only [told, p, batch, s, service, sink, store]
    decide +kernel
  · dsimp only [told, q, batch, s, service, sink, store]
    decide +kernel

end Processor

end StreamControl
