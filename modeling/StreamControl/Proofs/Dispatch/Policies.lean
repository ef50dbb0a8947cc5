import StreamControl.Proofs.Dispatch.Accounts
import StreamControl.Proofs.Dispatch.Decisions
import StreamControl.Proofs.Dispatch.Frontier

/-!
# Processors told on a view of the state

A policy says what a processor does with each message, as a function of a view of the state: nothing,
or to decide by a verdict (`Ruling`).  A processor follows a policy if its branches decide by the
verdicts and its sink delivers every reply and leaves the view alone (`Processor.follows`).  Then its
whole run is known from the policy and the view: how its messages end (`Follows.fates_eq`), the view
that it leaves (`Follows.view_handleBatch`) and its report (`Follows.result_handleBatch`).

The last section is about registries of two processors.  A batch can be given as a whole to one after
the other (`Policy.entries`), or message by message to both (`Policy.answersSingly`).
-/

namespace StreamControl

variable {σ τ : Type} {view : σ → τ}

/-- A sink that delivers every reply and leaves a view of the state as it is. -/
def Sink.Delivers (view : σ → τ) (sink : Sink σ) : Prop :=
  ∀ m reply, (sink m reply).Reads view fun _ => .ok ()

/-! ## Policies -/

/-- How a message that a processor answers to is decided: the verdict fails, or says what becomes of
the view, and success is acknowledged or not. -/
structure Ruling (τ : Type) where
  acknowledge : Bool
  verdict : τ → Except Failure τ

namespace Ruling

/-- What a branch that decides by the ruling gives. -/
def given (r : Ruling τ) (t : τ) : Except Failure Bool := (r.verdict t).map fun _ => r.acknowledge

/-- The view afterwards: a message that fails changes nothing. -/
def after (r : Ruling τ) (t : τ) : τ := (r.verdict t).toOption.getD t

end Ruling

/-- What a processor does with each message; it has no ruling on those that it does not answer to. -/
abbrev Policy (τ : Type) := Message → Option (Ruling τ)

namespace Policy

/-- How a message ends, with the reply to it if there is one. -/
def answer (q : Policy τ) (m : Message) (t : τ) : Outcome × Option Reply :=
  match q m with
  | none => (.dropped, none)
  | some ruling => Processor.conclude (ruling.given t)

/-- The view after a message. -/
def after (q : Policy τ) (m : Message) (t : τ) : τ :=
  match q m with
  | none => t
  | some ruling => ruling.after t

/-- How messages end, one after the other. -/
def answers (q : Policy τ) : List Message → τ → List (Outcome × Option Reply)
  | [], _ => []
  | m :: ms, t => q.answer m t :: q.answers ms (q.after m t)

/-- The view after messages. -/
def afterAll (q : Policy τ) (ms : List Message) (t : τ) : τ := ms.foldl (fun t m => q.after m t) t

/-- The replies to messages, in order, each with its message. -/
def replies (q : Policy τ) : List Message → τ → List (Message × Reply)
  | [], _ => []
  | m :: ms, t => (q.answer m t).2.toList.map (m, ·) ++ q.replies ms (q.after m t)

/-- The counts over messages. -/
def report (q : Policy τ) (ms : List Message) (t : τ) : Report :=
  .tally ((q.answers ms t).map (·.1))

variable {q : Policy τ} {m : Message} {ms : List Message} {t : τ}

@[simp] theorem afterAll_nil : q.afterAll [] t = t := rfl

@[simp] theorem afterAll_cons : q.afterAll (m :: ms) t = q.afterAll ms (q.after m t) := rfl

theorem afterAll_append (before rest : List Message) :
    q.afterAll (before ++ rest) t = q.afterAll rest (q.afterAll before t) := List.foldl_append

theorem length_answers (q : Policy τ) (ms : List Message) (t : τ) :
    (q.answers ms t).length = ms.length := by
  induction ms generalizing t with
  | nil => rfl
  | cons m ms ih => rw [answers, List.length_cons, List.length_cons, ih]

/-- A message meets the view that the messages before it leave. -/
theorem getElem?_answers (q : Policy τ) (ms : List Message) (t : τ) (i : Nat) :
    (q.answers ms t)[i]? = ms[i]?.map fun m => q.answer m (q.afterAll (ms.take i) t) := by
  induction ms generalizing t i with
  | nil => rfl
  | cons m ms ih =>
    cases i with
    | zero => rfl
    | succ i =>
      rw [answers, List.getElem?_cons_succ, List.getElem?_cons_succ, ih, List.take_succ_cons]
      rfl

theorem answer_of_none (h : q m = none) : q.answer m t = (.dropped, none) := by
  rw [answer, h]

theorem after_of_none (h : q m = none) : q.after m t = t := by
  rw [after, h]

/-- A message that its ruling refuses is told so and changes nothing. -/
theorem of_refused {ruling : Ruling τ} (hruling : q m = some ruling) {f : Refusal}
    (hrefused : ruling.verdict t = .error (.refused f)) :
    q.answer m t = (.rejected f, some f.reply) ∧ q.after m t = t := by
  rw [answer, after, hruling]
  dsimp only [Ruling.given, Ruling.after]
  rw [hrefused]
  exact ⟨rfl, rfl⟩

/-- A message that its ruling carries out is acknowledged or not, as the ruling says. -/
theorem of_done {ruling : Ruling τ} (hruling : q m = some ruling) {t' : τ}
    (hdone : ruling.verdict t = .ok t') :
    q.answer m t = Processor.conclude (.ok ruling.acknowledge) ∧ q.after m t = t' := by
  rw [answer, after, hruling]
  dsimp only [Ruling.given, Ruling.after]
  rw [hdone]
  exact ⟨rfl, rfl⟩

/-- Rules that say something of every message, and only what the policy does, say all that it does. -/
theorem rules_iff {rules : Message → τ → Outcome → Option Reply → τ → Prop}
    (hsound : ∀ {m t outcome reply? t'}, rules m t outcome reply? t' →
      q.answer m t = (outcome, reply?) ∧ q.after m t = t')
    (htotal : ∀ m t, ∃ outcome reply? t', rules m t outcome reply? t') {outcome : Outcome}
    {reply? : Option Reply} {t' : τ} :
    rules m t outcome reply? t' ↔ q.answer m t = (outcome, reply?) ∧ q.after m t = t' := by
  refine ⟨hsound, ?_⟩
  rintro ⟨hanswer, hafter⟩
  obtain ⟨outcome', reply', after, hrules⟩ := htotal m t
  obtain ⟨hanswer', hafter'⟩ := hsound hrules
  obtain ⟨rfl, rfl⟩ := Prod.mk.inj (hanswer.symm.trans hanswer')
  obtain rfl := hafter.symm.trans hafter'
  exact hrules

theorem mem_replies {sent : Message × Reply} (h : sent ∈ q.replies ms t) :
    sent.1 ∈ ms ∧ ∃ t', (q.answer sent.1 t').2 = some sent.2 := by
  induction ms generalizing t with
  | nil => exact absurd h List.not_mem_nil
  | cons m ms ih =>
    rcases List.mem_append.1 h with h | h
    · obtain ⟨reply, hreply, rfl⟩ := List.mem_map.1 h
      exact ⟨List.mem_cons_self, t, Option.mem_toList.1 hreply⟩
    · exact (ih h).imp_left (List.mem_cons_of_mem m)

/-- A message that is dropped or rejected leaves the view as it is. -/
theorem after_of_harmless
    (h : (q.answer m t).1 = .dropped ∨ ∃ f, (q.answer m t).1 = .rejected f) : q.after m t = t := by
  unfold answer at h
  rcases hruling : q m with _ | ruling
  · exact after_of_none hruling
  · rw [hruling] at h
    rw [after, hruling]
    dsimp only at h ⊢
    -- a ruling that moves the view completes the message, against the hypothesis
    rcases hverdict : ruling.verdict t with e | t'
    · rw [Ruling.after, hverdict]
      rfl
    · have hcompleted : (Processor.conclude (ruling.given t)).1 = .completed ruling.acknowledge := by
        rw [Ruling.given, hverdict]
        cases ruling.acknowledge <;> rfl
      rw [hcompleted] at h
      rcases h with h | ⟨f, h⟩
      · contradiction
      · contradiction

end Policy

/-! ## Processors that follow a policy -/

/-- A processor treats every message as a policy says. -/
def Processor.Follows (view : σ → τ) (p : Processor σ) (q : Policy τ) : Prop :=
  ∀ m s, p.fate m s = .ended (q.answer m (view s)) ∧
    view (p.handle m s).state = q.after m (view s)

/-- A branch that decides by the verdict of a ruling gives what the ruling says. -/
theorem Step.Decides.given_after {x : Step σ (Except Failure Bool)} {ruling : Ruling τ}
    (h : x.Decides view ruling.acknowledge ruling.verdict) (s : σ) :
    (x s).result = ruling.given (view s) ∧ view (x s).state = ruling.after (view s) := by
  have hdecides := h s
  unfold Ruling.given Ruling.after
  rcases hverdict : ruling.verdict (view s) with e | t
  · rw [hverdict] at hdecides
    exact hdecides
  · rw [hverdict] at hdecides
    exact hdecides

namespace Processor

/-- A route never calls the sink. -/
theorem replies_execute (processor : String) (route : Route σ) (m : Message) (s : σ) :
    (((route.traced processor).execute m).calls s).filterMap Call.reply? = [] :=
  List.filterMap_eq_nil_iff.2 fun _ hc => (Route.mem_calls_execute hc).2.2

/-- A processor whose branches decide by the rulings of a policy follows it, if its sink delivers. -/
theorem follows {p : Processor σ} {q : Policy τ} (hsink : p.sink.Delivers view)
    (hnone : ∀ m, p.match? m = none → q m = none)
    (hsome : ∀ m branch route, p.match? m = some (branch, route) →
      ∃ ruling, q m = some ruling ∧
        (route.execute m).Decides view ruling.acknowledge ruling.verdict) :
    p.Follows view q := by
  intro m s
  rcases hmatch : p.match? m with _ | ⟨branch, route⟩
  · obtain ⟨hresult, hstate, hcalls⟩ := handle_unmatched hmatch s
    have hruling := hnone m hmatch
    rw [fate, hresult, hcalls, hstate, Policy.answer_of_none hruling, Policy.after_of_none hruling]
    exact ⟨rfl, rfl⟩
  · obtain ⟨ruling, hruling, hdecides⟩ := hsome m branch route hmatch
    obtain ⟨hgiven, hafter⟩ := hdecides.given_after s
    have hanswer : q.answer m (view s) = conclude (route.execute m s).result := by
      rw [Policy.answer, hruling, hgiven]
    have hview : q.after m (view s) = view (route.execute m s).state := by
      rw [Policy.after, hruling, hafter]
    rw [fate, hanswer, hview]
    -- the route decides; what is left is that the sink, if it is called, leaves the view alone
    rcases hreply : conclude (route.execute m s).result with ⟨outcome, _ | reply⟩
    · obtain ⟨hresult, hstate, hcalls⟩ := handle_unanswered hmatch hreply
      rw [hresult, hstate, hcalls, replies_execute]
      exact ⟨rfl, rfl⟩
    · obtain ⟨hstate, hcalls, hresult⟩ := handle_answered hmatch hreply
      obtain ⟨hsent, hkept⟩ := hsink m reply (route.execute m s).state
      rw [hresult, hstate, hcalls, hsent, hkept, List.filterMap_append, replies_execute]
      exact ⟨rfl, rfl⟩

/-- The replies that the sink is handed for a message answer that message. -/
theorem replies_calls (p : Processor σ) (m : Message) (s : σ) :
    (p.calls m s).filterMap Call.reply? = (p.fate m s).replies.map (m, ·) := by
  -- the pairs carry the message themselves, so forgetting it loses nothing
  have hown : ∀ sent ∈ (p.calls m s).filterMap Call.reply?, (m, sent.2) = sent := by
    intro sent hsent
    obtain ⟨c, hc, hreply⟩ := List.mem_filterMap.1 hsent
    have hmessage := (mem_calls hc).2
    cases c with
    | validator => contradiction
    | action => contradiction
    | sink processor m' reply gave =>
      cases hreply
      cases hmessage
      rfl
  rw [fate, List.map_map]
  exact ((List.map_congr_left hown).trans (List.map_id _)).symm

namespace Follows

variable {p : Processor σ} {q : Policy τ}

theorem result_handle (h : p.Follows view q) (m : Message) (s : σ) :
    (p.handle m s).result = .ok (q.answer m (view s)).1 := congrArg Fate.result (h m s).1

/-- How a message ends and what becomes of the view is what the policy says. -/
theorem ended_iff (h : p.Follows view q) (m : Message) (s : σ) {outcome : Outcome}
    {reply? : Option Reply} {t : τ} :
    (p.fate m s = .ended (outcome, reply?) ∧ view (p.handle m s).state = t) ↔
      q.answer m (view s) = (outcome, reply?) ∧ q.after m (view s) = t := by
  rw [(h m s).1, (h m s).2, Fate.ended_inj]

/-- No message of a processor that follows a policy goes without its fate. -/
theorem fates_eq (h : p.Follows view q) (ms : List Message) (s : σ) :
    p.fates ms s = (q.answers ms (view s)).map .ended := by
  induction ms generalizing s with
  | nil => rfl
  | cons m ms ih =>
    obtain ⟨hfate, hview⟩ := h m s
    rw [fates, h.result_handle, hfate]
    dsimp only
    rw [ih, hview]
    rfl

theorem view_handleAll (h : p.Follows view q) (ms : List Message) (s : σ) :
    view (p.handleAll ms s).state = q.afterAll ms (view s) := by
  induction ms generalizing s with
  | nil => rfl
  | cons m ms ih =>
    rw [handleAll, Step.bind_apply, h.result_handle]
    dsimp only
    rw [Step.bind_apply, Policy.afterAll_cons, ← (h m s).2, ← ih]
    rcases (p.handleAll ms (p.handle m s).state).result with e | outcomes
    · rfl
    · rfl

theorem view_handleBatch (h : p.Follows view q) (batch : List Message) (s : σ) :
    view (p.handleBatch batch s).state = q.afterAll batch (view s) := by
  rw [handleBatch_state, h.view_handleAll]

/-- The replies that the sink is handed are those of the policy. -/
theorem replies_after (h : p.Follows view q) (ms : List Message) (t : Traced σ) :
    (p.after ms t).calls.filterMap Call.reply? =
        t.calls.filterMap Call.reply? ++ q.replies ms (view t.state) ∧
      view (p.after ms t).state = q.afterAll ms (view t.state) := by
  induction ms generalizing t with
  | nil => exact ⟨(List.append_nil _).symm, rfl⟩
  | cons m ms ih =>
    -- the induction goes over the view, in which the policy takes the same step
    obtain ⟨hfate, hview⟩ := h m t.state
    have hstate := p.traced_handle_state m t
    obtain ⟨hreplies, hafter⟩ := ih (p.traced.handle m t).state
    rw [hstate] at hreplies hafter
    dsimp only at hreplies hafter
    rw [hview] at hreplies hafter
    rw [List.filterMap_append, replies_calls, hfate, List.append_assoc, ← hstate] at hreplies
    rw [← hstate] at hafter
    exact ⟨hreplies, hafter⟩

/-- The outcomes of messages are those that the policy gives. -/
theorem outcomes_eq (h : p.Follows view q) (ms : List Message) (s : σ) :
    (p.handleAll ms s).result = .ok ((q.answers ms (view s)).map (·.1)) := by
  rw [result_handleAll, h.fates_eq]
  induction q.answers ms (view s) with
  | nil => rfl
  | cons answer answers ih =>
    rw [List.map_cons, List.mapM_cons, ih]
    rfl

/-- A processor that follows a policy reports every batch. -/
theorem result_handleBatch (h : p.Follows view q) (batch : List Message) (s : σ) :
    (p.handleBatch batch s).result = .ok (q.report batch (view s)) :=
  result_handleBatch_of_ok (h.outcomes_eq batch s)

end Follows

end Processor

/-! ## Two processors -/

/-- A message with its fates at two processors. -/
def Entry.paired (m : Message) (answers : (Outcome × Option Reply) × (Outcome × Option Reply)) :
    Entry := ⟨m, [.ended answers.1, .ended answers.2]⟩

namespace Policy

variable {q q' : Policy τ} {m : Message} {ms : List Message} {t t' : τ}

/-- Messages with their fates under two policies, each of which goes through all of them on a view of
its own. -/
def entries (q q' : Policy τ) (ms : List Message) (t t' : τ) : List Entry :=
  ms.zipWith .paired ((q.answers ms t).zip (q'.answers ms t'))

/-- How messages end when each is given to both policies before the next one. -/
def answersSingly (q q' : Policy τ) :
    List Message → τ → List ((Outcome × Option Reply) × (Outcome × Option Reply))
  | [], _ => []
  | m :: ms, t =>
    (q.answer m t, q'.answer m (q.after m t)) ::
      q.answersSingly q' ms (q'.after m (q.after m t))

/-- The view after messages that are each given to both policies before the next one. -/
def afterSingly (q q' : Policy τ) (ms : List Message) (t : τ) : τ :=
  ms.foldl (fun t m => q'.after m (q.after m t)) t

@[simp] theorem entries_cons : q.entries q' (m :: ms) t t' =
    .paired m (q.answer m t, q'.answer m t') ::
      q.entries q' ms (q.after m t) (q'.after m t') := rfl

@[simp] theorem afterSingly_cons : q.afterSingly q' (m :: ms) t =
    q.afterSingly q' ms (q'.after m (q.after m t)) := rfl

/-- The fates of a message are those at its place in the run of each policy. -/
theorem entries_eq_mapIdx (q q' : Policy τ) (ms : List Message) (t t' : τ) :
    q.entries q' ms t t' =
      ms.mapIdx fun i m => ⟨m, [(q.answers ms t).map Fate.ended,
        (q'.answers ms t').map Fate.ended].filterMap (·[i]?)⟩ := by
  induction ms generalizing t t' with
  | nil => rfl
  | cons m ms ih =>
    rw [entries_cons, ih, List.mapIdx_cons]
    rfl

end Policy

namespace Registry

variable {r : Registry σ} {p p' : Processor σ} {q q' : Policy τ}

/-- The second processor starts on the view that the first one leaves. -/
theorem account_of_follows (hprocessors : r.processors = [p, p']) (h : p.Follows view q)
    (h' : p'.Follows view q') (batch : List Message) (s : σ) :
    r.account batch s = q.entries q' batch (view s) (q.afterAll batch (view s)) := by
  unfold account
  rw [hprocessors, fatesTo, h.result_handleBatch]
  dsimp only
  rw [fatesTo, h'.result_handleBatch, h.fates_eq, h'.fates_eq, h.view_handleBatch,
    Policy.entries_eq_mapIdx]
  rfl

/-- A dispatch runs one processor after the other, each with its own report. -/
theorem dispatch_in_turn (hprocessors : r.processors = [p, p']) (h : p.Follows view q)
    (h' : p'.Follows view q') (batch : List Message) (s : σ) :
    let first := p.handleBatch batch s
    let second := p'.handleBatch batch first.state
    (r.dispatch batch s).result =
        .ok [(p.name, q.report batch (view s)), (p'.name, q'.report batch (view first.state))] ∧
      (r.dispatch batch s).state = second.state := by
  intro first second
  unfold dispatch
  rw [hprocessors, dispatchTo, Step.bind_apply, h.result_handleBatch batch s]
  dsimp only
  rw [Step.bind_apply, dispatchTo, Step.bind_apply, h'.result_handleBatch batch first.state]
  exact ⟨rfl, rfl⟩

theorem dispatch_of_follows (hprocessors : r.processors = [p, p']) (h : p.Follows view q)
    (h' : p'.Follows view q') (batch : List Message) (s : σ) :
    (r.dispatch batch s).result =
        .ok [(p.name, q.report batch (view s)),
          (p'.name, q'.report batch (q.afterAll batch (view s)))] ∧
      view (r.dispatch batch s).state = q'.afterAll batch (q.afterAll batch (view s)) := by
  obtain ⟨hreports, hstate⟩ := dispatch_in_turn hprocessors h h' batch s
  rw [hreports, hstate, h'.view_handleBatch, h.view_handleBatch]
  exact ⟨rfl, rfl⟩

/-- Messages that are dispatched one at a time are each given to both processors before the next. -/
theorem accountSingly_of_follows (hprocessors : r.processors = [p, p']) (h : p.Follows view q)
    (h' : p'.Follows view q') (ms : List Message) (s : σ) :
    r.accountSingly ms s = ms.zipWith .paired (q.answersSingly q' ms (view s)) := by
  induction ms generalizing s with
  | nil => rfl
  | cons m ms ih =>
    obtain ⟨hresult, hview⟩ := dispatch_of_follows hprocessors h h' [m] s
    rw [accountSingly, account_of_follows hprocessors h h', hresult]
    dsimp only
    rw [ih, hview]
    rfl

theorem dispatchSingly_of_follows (hprocessors : r.processors = [p, p']) (h : p.Follows view q)
    (h' : p'.Follows view q') (ms : List Message) (s : σ) :
    let answers := q.answersSingly q' ms (view s)
    (r.dispatchSingly ms s).result =
        .ok [(p.name, .tally (answers.map (·.1.1))), (p'.name, .tally (answers.map (·.2.1)))] ∧
      view (r.dispatchSingly ms s).state = q.afterSingly q' ms (view s) := by
  induction ms generalizing s with
  | nil =>
    rw [dispatchSingly, names, hprocessors]
    exact ⟨rfl, rfl⟩
  | cons m ms ih =>
    obtain ⟨hresult, hview⟩ := dispatch_of_follows hprocessors h h' [m] s
    obtain ⟨hresults, hviews⟩ := ih (r.dispatch [m] s).state
    rw [hview] at hresults hviews
    rw [dispatchSingly, Step.bind_apply, hresult]
    dsimp only
    rw [Step.bind_apply, hresults]
    refine ⟨?_, hviews⟩
    -- the counts over the first message and over the others add up
    have hadd : ∀ (outcome : Outcome) (outcomes : List Outcome),
        (Report.tally [outcome]).merge (.tally outcomes) = .tally (outcome :: outcomes) :=
      fun outcome outcomes => (Report.tally_append [outcome] outcomes).symm
    simp only [addReports, Policy.report, Policy.answers, Policy.answersSingly, List.map_cons,
      List.map_nil, List.zipWith_cons_cons, List.zipWith_nil_left, Policy.afterAll_cons,
      Policy.afterAll_nil, Step.pure_apply, hadd]

end Registry

end StreamControl
