import StreamControl.Proofs.Dispatch.Conduct
import StreamControl.Proofs.Dispatch.Invariants

/-!
# Where a batch stops

Failures of validators and actions end one message; a reply that cannot be delivered ends the whole
dispatch.  `Registry.StopsAt` names the one place where that happens: what was done before it, what
is done there, and that nothing is done after it.  `Registry.dispatch_frontier` says that a dispatch
either stops at such a place or goes through all processors and all messages.
-/

namespace StreamControl

variable {σ : Type}

/-! ## Runs that can fail -/

/-- A run gives a result and a state that fit `ok`, or an error and a state that fit `stop`. -/
def Ran.Ends {τ ε α : Type} (run : Ran τ (Except ε α)) (ok : α → τ → Prop) (stop : ε → τ → Prop) :
    Prop :=
  match run.result with
  | .ok a => ok a run.state
  | .error e => stop e run.state

/-- Two steps in a row, the second chosen by what the first gave. -/
theorem Ran.ends_bind {τ ε α β : Type} {x : Step τ (Except ε α)}
    {g : Except ε α → Step τ (Except ε β)} {t : τ} {ok : α → τ → Prop} {ok' : β → τ → Prop}
    {stop stop' : ε → τ → Prop} (hfirst : (x t).Ends ok stop)
    (hstop : ∀ e u, stop e u → (g (.error e) u).Ends ok' stop')
    (hrest : ∀ a u, ok a u → (g (.ok a) u).Ends ok' stop') : ((x >>= g) t).Ends ok' stop' := by
  unfold Ends at hfirst
  rcases hresult : (x t).result with e | a
  · rw [hresult] at hfirst
    unfold Ends
    rw [Step.bind_apply, hresult]
    exact hstop e (x t).state hfirst
  · rw [hresult] at hfirst
    unfold Ends
    rw [Step.bind_apply, hresult]
    exact hrest a (x t).state hfirst

/-! ## What was done -/

/-- The state and the calls once a processor handled messages, whatever became of the replies. -/
def Processor.after (p : Processor σ) (ms : List Message) (t : Traced σ) : Traced σ :=
  ms.foldl (fun t m => (p.traced.handle m t).state) t

/-- The state and the calls once processors handled a whole batch, one after the other. -/
def Processor.afterEach (ps : List (Processor σ)) (batch : List Message) (t : Traced σ) :
    Traced σ :=
  ps.foldl (fun t p => p.after batch t) t

/-- Every reply was delivered. -/
def Traced.Delivered (t : Traced σ) : Prop := ∀ c ∈ t.calls, c.isUndelivered = false

/-- A message runs its route, what that gave is to be answered, and the sink fails: the error names
the processor and the message, the effects of the route and of the sink stay, and the failed call is
the last one. -/
inductive Processor.Undelivers (p : Processor σ) (m : Message) (t : Traced σ) :
    Undelivered → Traced σ → Prop
  | sink {branch : Branch} {route : Route σ} {outcome : Outcome} {reply : Reply}
      {source : DeliveryError} :
      p.match? m = some (branch, route) →
      Answers (route.execute m t.state).result outcome reply →
      (p.sink m reply (route.execute m t.state).state).result = .error source →
      Undelivers p m t ⟨p.name, m.sessionId, m.requestId, source⟩
        ⟨(p.sink m reply (route.execute m t.state).state).state,
          t.calls ++ (((route.traced p.name).execute m).calls t.state ++
            [.sink p.name m reply (.error source)])⟩

/-- A processor stops at message `i` of a list: the replies to those before were all delivered, and
the reply to this one is not. -/
def Processor.StopsAt (p : Processor σ) (ms : List Message) (t : Traced σ) (i : Nat)
    (e : Undelivered) (u : Traced σ) : Prop :=
  ∃ m, ms[i]? = some m ∧ (p.after (ms.take i) t).Delivered ∧
    p.Undelivers m (p.after (ms.take i) t) e u

/-- A dispatch stops at message `i` of processor `k`, after those before `k` were given the whole
batch.  No other processor calls anything, and this one calls nothing for a message after `i`. -/
def Registry.StopsAt (r : Registry σ) (batch : List Message) (s : σ) (k i : Nat) (e : Undelivered)
    (u : Traced σ) : Prop :=
  ∃ p, r.processors[k]? = some p ∧
    p.StopsAt batch (Processor.afterEach (r.processors.take k) batch (.start s)) i e u ∧
    ∀ c ∈ u.calls, c.processor ∈ r.names.take k ∨
      c.processor = p.name ∧ c.message ∈ batch.take (i + 1)

/-! ## The calls of a route -/

theorem Call.isUndelivered_of_reply? {c : Call σ} (h : c.reply? = none) :
    c.isUndelivered = false := by
  cases c <;> first | rfl | contradiction

/-- A chain calls its validators and nothing else. -/
theorem Chain.mem_calls_runAll {processor : String} {m : Message} {vs : List (Validator σ)} {s : σ}
    {c : Call σ} (h : c ∈ (runAll m (vs.map (Validator.traced processor))).calls s) :
    ∃ v gave, c = .validator processor m v gave := by
  induction vs generalizing s with
  | nil => exact absurd h List.not_mem_nil
  | cons v vs ih =>
    rw [calls_runAll_cons] at h
    rcases List.mem_cons.1 h with rfl | h
    · exact ⟨v, _, rfl⟩
    · rcases hcheck : (v.check m s).result with e | ⟨⟩
      · rw [hcheck] at h
        exact absurd h List.not_mem_nil
      · rw [hcheck] at h
        exact ih h

/-- A route calls for its own processor and message, and never the sink. -/
theorem Route.mem_calls_execute {processor : String} {route : Route σ} {m : Message} {s : σ}
    {c : Call σ} (h : c ∈ ((route.traced processor).execute m).calls s) :
    c.processor = processor ∧ c.message = m ∧ c.reply? = none := by
  rw [calls_execute] at h
  rcases List.mem_append.1 h with h | h
  · obtain ⟨v, gave, rfl⟩ := Chain.mem_calls_runAll h
    exact ⟨rfl, rfl, rfl⟩
  · rcases hrun : (route.chain.run m s).result with e | ⟨⟩
    · rw [hrun] at h
      exact absurd h List.not_mem_nil
    · rw [hrun] at h
      rw [List.mem_singleton.1 h]
      exact ⟨rfl, rfl, rfl⟩

/-- A route runs its action at most once. -/
theorem Route.length_actions_execute (processor : String) (route : Route σ) (m : Message) (s : σ) :
    ((((route.traced processor).execute m).calls s).filterMap Call.action?).length ≤ 1 := by
  have hchain : (((route.traced processor).chain.run m).calls s).filterMap Call.action? = [] := by
    refine List.filterMap_eq_nil_iff.2 fun c hc => ?_
    obtain ⟨v, gave, rfl⟩ := Chain.mem_calls_runAll hc
    rfl
  rw [calls_execute, List.filterMap_append, hchain, List.nil_append]
  rcases (route.chain.run m s).result with e | ⟨⟩
  · exact Nat.zero_le 1
  · exact Nat.le_refl 1

/-! ## One message -/

namespace Processor

/-- The calls of a message are its own, and only a reply can fail to be delivered. -/
theorem mem_calls {p : Processor σ} {m : Message} {s : σ} {c : Call σ} (h : c ∈ p.calls m s) :
    c.processor = p.name ∧ c.message = m := by
  rcases hmatch : p.match? m with _ | ⟨branch, route⟩
  · rw [(handle_unmatched hmatch s).2.2] at h
    exact absurd h List.not_mem_nil
  · -- what the route calls comes first, then the sink if there is a reply
    rcases hreply : conclude (route.execute m s).result with ⟨outcome, _ | reply⟩
    · rw [(handle_unanswered hmatch hreply).2.2] at h
      exact (Route.mem_calls_execute h).imp_right And.left
    · rw [(handle_answered hmatch hreply).2.1] at h
      rcases List.mem_append.1 h with h | h
      · exact (Route.mem_calls_execute h).imp_right And.left
      · rw [List.mem_singleton.1 h]
        exact ⟨rfl, rfl⟩

/-- All calls of a message but that of the sink are made by its route. -/
theorem mem_calls_execute_of_reply? {p : Processor σ} {m : Message} {s : σ} {c : Call σ}
    (h : c ∈ p.calls m s) (hreply : c.reply? = none) :
    ∃ branch route, p.match? m = some (branch, route) ∧
      c ∈ ((route.traced p.name).execute m).calls s := by
  rcases hmatch : p.match? m with _ | ⟨branch, route⟩
  · rw [(handle_unmatched hmatch s).2.2] at h
    exact absurd h List.not_mem_nil
  · refine ⟨branch, route, rfl, ?_⟩
    rcases hconclude : conclude (route.execute m s).result with ⟨outcome, _ | reply⟩
    · rwa [(handle_unanswered hmatch hconclude).2.2] at h
    · rw [(handle_answered hmatch hconclude).2.1] at h
      rcases List.mem_append.1 h with h | h
      · exact h
      · rw [List.mem_singleton.1 h] at hreply
        contradiction

theorem traced_handle_result (p : Processor σ) (m : Message) (t : Traced σ) :
    (p.traced.handle m t).result = (p.handle m t.state).result :=
  congrArg Ran.result (notes_handle p m t.state t.calls)

theorem traced_handleAll_result (p : Processor σ) (ms : List Message) (t : Traced σ) :
    (p.traced.handleAll ms t).result = (p.handleAll ms t.state).result :=
  congrArg Ran.result (lift_handleAll Step.lifts_notes p.alike_traced ms t.state t.calls)

theorem traced_handle_state (p : Processor σ) (m : Message) (t : Traced σ) :
    (p.traced.handle m t).state = ⟨(p.handle m t.state).state, t.calls ++ p.calls m t.state⟩ :=
  congrArg Ran.state (notes_handle p m t.state t.calls)

/-- Where everything stops, the sink failed. -/
theorem Undelivers.sink_failed {p : Processor σ} {m : Message} {t u : Traced σ} {e : Undelivered}
    (h : p.Undelivers m t e u) : ∃ reply s, (p.sink m reply s).result = .error e.source := by
  cases h with
  | sink _ _ hfailed => exact ⟨_, _, hfailed⟩

/-- A message either has its reply delivered or is the place where everything stops. -/
theorem handle_stops (p : Processor σ) (m : Message) {t : Traced σ} (hdelivered : t.Delivered) :
    (p.traced.handle m t).Ends
      (fun _ u => u = (p.traced.handle m t).state ∧ u.Delivered)
      (fun e u => p.Undelivers m t e u) := by
  unfold Ran.Ends
  rw [traced_handle_result, traced_handle_state]
  rcases hmatch : p.match? m with _ | ⟨branch, route⟩
  · obtain ⟨hresult, -, hcalls⟩ := handle_unmatched hmatch t.state
    rw [hresult, hcalls, List.append_nil]
    exact ⟨rfl, hdelivered⟩
  · -- a route never calls the sink, so nothing goes undelivered before the reply
    have hroute : ∀ c ∈ ((route.traced p.name).execute m).calls t.state,
        c.isUndelivered = false := fun c hc =>
      Call.isUndelivered_of_reply? (Route.mem_calls_execute hc).2.2
    rcases hreply : conclude (route.execute m t.state).result with ⟨outcome, _ | reply⟩
    · obtain ⟨hresult, -, hcalls⟩ := handle_unanswered hmatch hreply
      rw [hresult, hcalls]
      exact ⟨rfl, List.forall_mem_append.2 ⟨hdelivered, hroute⟩⟩
    · obtain ⟨hstate, hcalls, hresult⟩ := handle_answered hmatch hreply
      rw [hresult, hstate, hcalls]
      -- here is the only place where handling a message can fail
      rcases hsink : (p.sink m reply (route.execute m t.state).state).result with source | ⟨⟩
      · exact .sink hmatch (answers_iff.2 hreply) hsink
      · refine ⟨rfl, List.forall_mem_append.2 ⟨hdelivered, List.forall_mem_append.2 ⟨hroute, ?_⟩⟩⟩
        exact List.forall_mem_singleton.2 rfl

/-! ## One processor -/

/-- A processor either handles all its messages or stops at one of them. -/
theorem handleAll_stops (p : Processor σ) (ms : List Message) {t : Traced σ}
    (hdelivered : t.Delivered) :
    (p.traced.handleAll ms t).Ends
      (fun outcomes u => outcomes.length = ms.length ∧ u = p.after ms t ∧ u.Delivered)
      (fun e u => ∃ i, p.StopsAt ms t i e u) := by
  -- that all replies so far were delivered is the invariant; a stop further on counts one up
  induction ms generalizing t with
  | nil => exact ⟨rfl, rfl, hdelivered⟩
  | cons m ms ih =>
    rw [handleAll]
    refine Ran.ends_bind (handle_stops p m hdelivered) ?_ ?_
    · intro e u hstop
      exact ⟨0, m, rfl, hdelivered, hstop⟩
    · rintro outcome u ⟨rfl, hafter⟩
      refine Ran.ends_bind (ih hafter) ?_ ?_
      · rintro e u ⟨i, m', hm', hbefore, hstop⟩
        exact ⟨i + 1, m', hm', hbefore, hstop⟩
      · rintro outcomes u ⟨hlength, hstate, hlast⟩
        exact ⟨congrArg (· + 1) hlength, hstate, hlast⟩

/-- A processor either handles its batch and reports it, or stops at one of the messages. -/
theorem handleBatch_stops (p : Processor σ) (batch : List Message) {t : Traced σ}
    (hdelivered : t.Delivered) :
    (p.traced.handleBatch batch t).Ends
      (fun report u => report.received = batch.length ∧ u = p.after batch t ∧ u.Delivered)
      (fun e u => ∃ i, p.StopsAt batch t i e u) := by
  unfold handleBatch
  refine Ran.ends_bind (handleAll_stops p batch hdelivered) (fun _ _ h => h) ?_
  rintro outcomes u ⟨hlength, hstate, hlast⟩
  have hreceived : (Report.tally outcomes).received = batch.length :=
    (Report.received_tally outcomes).trans hlength
  dsimp only
  -- only the event depends on whether the batch was empty
  split
  · exact ⟨hreceived, hstate, hlast⟩
  · exact ⟨hreceived, hstate, hlast⟩

/-- What a processor calls, it calls for itself and about one of its messages. -/
theorem mem_calls_after {p : Processor σ} {ms : List Message} {t : Traced σ} {c : Call σ}
    (h : c ∈ (p.after ms t).calls) :
    c ∈ t.calls ∨ c.processor = p.name ∧ c.message ∈ ms := by
  induction ms generalizing t with
  | nil => exact .inl h
  | cons m ms ih =>
    -- a call was made for the rest, or before it: then by the first message or still earlier
    rcases ih h with h | ⟨hname, hmem⟩
    · change c ∈ (p.traced.handle m t).state.calls at h
      rw [traced_handle_state] at h
      rcases List.mem_append.1 h with h | h
      · exact .inl h
      · obtain ⟨hname, rfl⟩ := mem_calls h
        exact .inr ⟨hname, List.mem_cons_self⟩
    · exact .inr ⟨hname, List.mem_cons_of_mem _ hmem⟩

/-- What each message keeps, all of them keep. -/
theorem keeps_after {p : Processor σ} {inv : Traced σ → Prop}
    (h : ∀ m, (p.traced.handle m).Keeps inv) (ms : List Message) {t : Traced σ} (ht : inv t) :
    inv (p.after ms t) := by
  induction ms generalizing t with
  | nil => exact ht
  | cons m ms ih => exact ih (h m t ht)

/-- What processors call, one of them calls. -/
theorem mem_calls_afterEach {ps : List (Processor σ)} {batch : List Message} {t : Traced σ}
    {c : Call σ} (h : c ∈ (afterEach ps batch t).calls) :
    c ∈ t.calls ∨ c.processor ∈ ps.map (·.name) := by
  induction ps generalizing t with
  | nil => exact .inl h
  | cons p ps ih =>
    rcases ih h with h | h
    · exact (mem_calls_after h).imp_right fun h => by simp [h.1]
    · exact .inr (List.mem_cons_of_mem _ h)

end Processor

/-! ## All processors -/

namespace Registry

/-- Processors either all handle the batch and report it, or one of them stops. -/
theorem dispatchTo_stops (batch : List Message) (ps : List (Processor σ)) {t : Traced σ}
    (hdelivered : t.Delivered) :
    (dispatchTo batch (ps.map Processor.traced) t).Ends
      (fun reports u => u = Processor.afterEach ps batch t ∧ u.Delivered ∧
        reports.map (·.1) = ps.map (·.name) ∧ ∀ entry ∈ reports, entry.2.received = batch.length)
      (fun e u => ∃ (k i : Nat) (p : Processor σ), ps[k]? = some p ∧
        p.StopsAt batch (Processor.afterEach (ps.take k) batch t) i e u) := by
  -- the same induction one level up, over the processors
  induction ps generalizing t with
  | nil => exact ⟨rfl, hdelivered, rfl, fun _ h => absurd h List.not_mem_nil⟩
  | cons p ps ih =>
    rw [List.map_cons, dispatchTo]
    refine Ran.ends_bind (Processor.handleBatch_stops p batch hdelivered) ?_ ?_
    · rintro e u ⟨i, hstop⟩
      exact ⟨0, i, p, rfl, hstop⟩
    · rintro report u ⟨hreceived, rfl, hafter⟩
      refine Ran.ends_bind (ih hafter) ?_ ?_
      · rintro e u ⟨k, i, p', hp', hstop⟩
        exact ⟨k + 1, i, p', hp', hstop⟩
      · rintro reports u ⟨hstate, hlast, hnames, hcounts⟩
        exact ⟨hstate, hlast, congrArg (p.name :: ·) hnames,
          List.forall_mem_cons.2 ⟨hreceived, hcounts⟩⟩

/-- Where a dispatch stops, everything was called by a processor before or for a message before. -/
theorem stopsAt_of_processor {r : Registry σ} {batch : List Message} {s : σ} {k i : Nat}
    {p : Processor σ} {e : Undelivered} {u : Traced σ} (hp : r.processors[k]? = some p)
    (hstop : p.StopsAt batch (Processor.afterEach (r.processors.take k) batch (.start s)) i e u) :
    r.StopsAt batch s k i e u := by
  refine ⟨p, hp, hstop, ?_⟩
  obtain ⟨m, hm, -, hundelivered⟩ := hstop
  have hmem : m ∈ batch.take (i + 1) :=
    List.mem_of_getElem? ((List.getElem?_take_of_lt (Nat.lt_succ_self i)).trans hm)
  -- only the sink can stop it, and the calls are those before, those of the route, and its own
  cases hundelivered with
  | sink hmatch _ _ =>
    intro c hc
    rcases List.mem_append.1 hc with hc | hc
    · rcases Processor.mem_calls_after hc with hc | ⟨hname, hc⟩
      · rcases Processor.mem_calls_afterEach hc with hc | hc
        · exact absurd hc List.not_mem_nil
        · exact .inl (List.map_take ▸ hc)
      · exact .inr ⟨hname, List.take_subset_take_left batch (Nat.le_succ i) hc⟩
    · rcases List.mem_append.1 hc with hc | hc
      · obtain ⟨hname, rfl, -⟩ := Route.mem_calls_execute hc
        exact .inr ⟨hname, hmem⟩
      · rw [List.mem_singleton.1 hc]
        exact .inr ⟨rfl, hmem⟩

/-- **A dispatch ends at the first reply that cannot be delivered, and nowhere else.**  If it gives
an error, it stopped at a message of a processor, with everything done before and nothing after; the
effects of the action there stay.  If it gives reports, all processors handled all messages, every
reply was delivered, and there is one report for each processor in order. -/
theorem dispatch_frontier (r : Registry σ) (batch : List Message) (s : σ) :
    let ended : Traced σ := ⟨(r.dispatch batch s).state, r.calls batch s⟩
    match (r.dispatch batch s).result with
    | .error e => ∃ k i, r.StopsAt batch s k i e ended
    | .ok reports =>
      ended = Processor.afterEach r.processors batch (.start s) ∧ ended.Delivered ∧
        reports.map (·.1) = r.names ∧ ∀ entry ∈ reports, entry.2.received = batch.length := by
  intro ended
  have hstart : (Traced.start s).Delivered := fun _ h => absurd h List.not_mem_nil
  -- the traced run and the plain one differ in the calls only
  have hnotes := r.notes_dispatch batch s []
  have hstops := dispatchTo_stops batch r.processors hstart
  have hrun : dispatchTo batch (r.processors.map Processor.traced) (.start s) =
      ⟨(r.dispatch batch s).result, ended, (r.dispatch batch s).events⟩ := hnotes
  rw [hrun] at hstops
  unfold Ran.Ends at hstops
  dsimp only at hstops
  rcases hresult : (r.dispatch batch s).result with e | reports
  · rw [hresult] at hstops
    obtain ⟨k, i, p, hp, hstop⟩ := hstops
    exact ⟨k, i, stopsAt_of_processor hp hstop⟩
  · rw [hresult] at hstops
    exact hstops

/-- The action of the message that cannot be answered has taken effect; the last message of the
second processor and the third processor have none. -/
example :
    let go : Route Nat := ⟨"go", .ofList [], fun _ => do Step.update (· + 1); return .ok true⟩
    let failing : Sink Nat := fun m _ =>
      pure (if m.requestId = "2" then .error (.encode "full") else .ok ())
    let r : Registry Nat :=
      ⟨[⟨"first", some go, none, Sink.logging⟩, ⟨"second", some go, none, failing⟩,
        ⟨"third", some go, none, Sink.logging⟩], by decide⟩
    let batch := ["1", "2", "3"].map (Message.identified (.addressed "go" "") "")
    (r.dispatch batch 0).state = 5 := by
  rfl

end Registry

end StreamControl
