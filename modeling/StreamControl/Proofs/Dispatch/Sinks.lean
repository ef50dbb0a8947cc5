import StreamControl.Proofs.Dispatch.Policies
import StreamControl.Proofs.Dispatch.Turns

/-!
# The sink does not matter

A processor hands replies to its sink in the middle of a batch, and the sink works on the same state
as validators and actions.  If these look at no more than a view of the state, and the sink leaves the
view alone and never fails, then nothing but what the sink writes depends on which sink it is.

Two runs are compared step by step (`Step.Agrees`).  Over traced processors the comparison includes
the calls, so that one lift of the relation to a batch says all there is to say
(`Processor.runsAlike_withSink`).
-/

namespace StreamControl

variable {σ τ α β : Type} {view : σ → τ}

/-! ## Steps that agree -/

namespace Step

/-- Two steps that start with the same view of the state give the same and leave the same view. -/
def Agrees (view : σ → τ) (x y : Step σ α) : Prop :=
  ∀ ⦃s t⦄, view s = view t → (x s).result = (y t).result ∧ view (x s).state = view (y t).state

/-- A step looks at no more than a view of the state, for what it gives and for what it makes of the
view. -/
def Within (view : σ → τ) (x : Step σ α) : Prop := x.Agrees view x

theorem agrees_pure (a : α) : Agrees view (pure a : Step σ α) (pure a) := by
  intro s t hview
  exact ⟨rfl, hview⟩

theorem agrees_emit (e : Event) : Agrees view (emit e : Step σ Unit) (emit e) := by
  intro s t hview
  exact ⟨rfl, hview⟩

theorem agrees_bind {x y : Step σ α} {f g : α → Step σ β} (hfirst : x.Agrees view y)
    (hrest : ∀ a, (f a).Agrees view (g a)) : (x >>= f).Agrees view (y >>= g) := by
  intro s t hview
  obtain ⟨hresult, hstate⟩ := hfirst hview
  rw [bind_apply, bind_apply, hresult]
  exact hrest _ hstate

/-- Agreement survives putting steps together. -/
theorem lifts_agrees : Lifts (fun _ (x y : Step σ _) => x.Agrees view y) where
  pure := agrees_pure
  emit := agrees_emit
  bind := agrees_bind

theorem Reads.within {x : Step σ α} {answer : τ → α} (h : x.Reads view answer) :
    x.Within view := by
  intro s t hview
  obtain ⟨hresult, hkept⟩ := h s
  obtain ⟨hresult', hkept'⟩ := h t
  rw [hresult, hresult', hkept, hkept', hview]
  exact ⟨rfl, rfl⟩

theorem Decides.within {ε : Type} {x : Step σ (Except ε α)} {a : α} {verdict : τ → Except ε τ}
    (h : x.Decides view a verdict) : x.Within view := by
  intro s t hview
  have hdecides := h s
  have hdecides' := h t
  rw [← hview] at hdecides'
  rcases hverdict : verdict (view s) with e | after
  · rw [hverdict] at hdecides hdecides'
    exact ⟨hdecides.1.trans hdecides'.1.symm, hdecides.2.trans hdecides'.2.symm⟩
  · rw [hverdict] at hdecides hdecides'
    exact ⟨hdecides.1.trans hdecides'.1.symm, hdecides.2.trans hdecides'.2.symm⟩

end Step

/-- What two runs of traced steps are compared by: a view of the state, and the calls. -/
def Traced.seen (view : σ → τ) (t : Traced σ) : τ × List (Call σ) := (view t.state, t.calls)

/-- Steps that agree still do so when they are noted as the same call. -/
theorem Step.Agrees.noting {x y : Step σ α} (h : x.Agrees view y) (call : α → Call σ) :
    (x.noting call).Agrees (Traced.seen view) (y.noting call) := by
  intro s t hseen
  obtain ⟨hview, hcalls⟩ := Prod.mk.inj hseen
  obtain ⟨hresult, hstate⟩ := h hview
  refine ⟨hresult, Prod.ext hstate ?_⟩
  change s.calls ++ _ = t.calls ++ _
  rw [hcalls, hresult]

/-! ## Processors that differ in their sinks -/

/-- The validators and the action of a route look at no more than a view of the state. -/
structure Route.Within (view : σ → τ) (r : Route σ) : Prop where
  checks : ∀ v ∈ r.chain.validators, ∀ m, (v.check m).Within view
  action : ∀ m, (r.action m).Within view

theorem Validator.within_of_reads {m : Message} {vs : List (Validator σ)}
    {rules : List (τ → Except Failure Unit)}
    (h : List.Forall₂ (fun v rule => (v.check m).Reads view rule) vs rules) {v : Validator σ}
    (hv : v ∈ vs) : (v.check m).Within view := by
  induction h with
  | nil => exact absurd hv List.not_mem_nil
  | cons hfirst _ ih =>
    rcases List.mem_cons.1 hv with rfl | hv
    · exact hfirst.within
    · exact ih hv

/-- Validators that read a view and an action that decides about it look at nothing else. -/
theorem Route.within_of_decides {r : Route σ} {rules : Message → List (τ → Except Failure Unit)}
    {acknowledge : Bool} {change : Message → τ → Except Failure τ}
    (hchecks : ∀ m, List.Forall₂ (fun v rule => (v.check m).Reads view rule) r.chain.validators
      (rules m))
    (haction : ∀ m, (r.action m).Decides view acknowledge (change m)) : r.Within view :=
  ⟨fun _ hv m => Validator.within_of_reads (hchecks m) hv, fun m => (haction m).within⟩

/-- All validators and actions of a processor look at no more than a view of the state. -/
def Processor.Within (view : σ → τ) (p : Processor σ) : Prop :=
  ∀ branch r, p.route? branch = some r → r.Within view

/-- The processor with another sink. -/
def Processor.withSink (p : Processor σ) (sink : Sink σ) : Processor σ := { p with sink }

/-- All calls of a processor for a batch, in order. -/
def Processor.batchCalls (p : Processor σ) (batch : List Message) (s : σ) : List (Call σ) :=
  (p.traced.handleBatch batch).calls s

theorem Processor.batchCalls_eq_turns (p : Processor σ) (batch : List Message) (s : σ) :
    p.batchCalls batch s = (p.turns batch s).flatten := by
  rw [batchCalls, Step.calls, (p.traced_handleBatch_eq batch _).2]
  rfl

/-- The replies to a batch are those of the policy. -/
theorem Processor.Follows.replies_batchCalls {p : Processor σ} {q : Policy τ}
    (h : p.Follows view q) (batch : List Message) (s : σ) :
    (p.batchCalls batch s).filterMap Call.reply? = q.replies batch (view s) := by
  have hstops := p.handleBatch_stops batch (t := .start s) fun _ hc => absurd hc List.not_mem_nil
  unfold Ran.Ends at hstops
  rw [(p.traced_handleBatch_eq batch _).1, Traced.start, h.result_handleBatch] at hstops
  rw [batchCalls, Step.calls, Traced.start, hstops.2.1]
  exact (h.replies_after batch (.start s)).1

/-- Two processors get through a batch in the same way: every message ends alike, the reports and the
calls are the same, with what each call gave, and so is the view of the state afterwards. -/
structure Processor.RunsAlike (view : σ → τ) (p q : Processor σ) (batch : List Message) (s : σ) :
    Prop where
  outcomes : ∃ outcomes : List Outcome, outcomes.length = batch.length ∧
    (p.handleAll batch s).result = .ok outcomes ∧ (q.handleAll batch s).result = .ok outcomes
  report : ∃ report, (p.handleBatch batch s).result = .ok report ∧
    (q.handleBatch batch s).result = .ok report
  state : view (p.handleBatch batch s).state = view (q.handleBatch batch s).state
  calls : p.batchCalls batch s = q.batchCalls batch s

theorem Sink.Delivers.agrees {a b : Sink σ} (ha : a.Delivers view) (hb : b.Delivers view)
    (m : Message) (reply : Reply) : (a m reply).Agrees view (b m reply) := by
  intro s t hview
  obtain ⟨hsent, hkept⟩ := ha m reply s
  obtain ⟨hsent', hkept'⟩ := hb m reply t
  rw [hsent, hsent', hkept, hkept', hview]
  exact ⟨rfl, rfl⟩

theorem Route.Within.alike_traced {r : Route σ} (h : r.Within view) (processor : String) :
    (r.traced processor).Alike (fun _ x y => x.Agrees (Traced.seen view) y)
      (r.traced processor) where
  command := rfl
  checks := by
    refine List.forall₂_same.2 fun traced htraced => ⟨rfl, fun m => ?_⟩
    obtain ⟨v, hv, rfl⟩ := List.mem_map.1 htraced
    exact (h.checks v hv m).noting _
  action m := (h.action m).noting _

namespace Processor

/-- Traced processors that differ in their sinks are alike, if the sinks deliver. -/
theorem alike_withSink {p : Processor σ} {a b : Sink σ} (h : p.Within view)
    (ha : a.Delivers view) (hb : b.Delivers view) :
    (p.withSink a).traced.Alike (fun _ x y => x.Agrees (Traced.seen view) y)
      (p.withSink b).traced where
  name := rfl
  routes branch := by
    -- the sink is no part of a route
    have hsame : (p.withSink a).traced.route? branch = (p.withSink b).traced.route? branch := by
      cases branch <;> rfl
    have htraced : (p.withSink b).traced.route? branch =
        (p.route? branch).map (Route.traced p.name) := by
      cases branch <;> rfl
    rw [hsame, htraced]
    rcases hroute : p.route? branch with _ | r
    · exact .none
    · exact .some ((h branch r hroute).alike_traced p.name)
  sink m reply := (ha.agrees hb m reply).noting _

/-- With a sink that delivers, every message is handled to its end. -/
theorem exists_outcomes {p : Processor σ} (h : p.sink.Delivers view) (ms : List Message) (s : σ) :
    ∃ outcomes : List Outcome, outcomes.length = ms.length ∧
      (p.handleAll ms s).result = .ok outcomes := by
  have hstops := p.handleAll_stops ms (t := .start s) fun _ hc => absurd hc List.not_mem_nil
  unfold Ran.Ends at hstops
  rw [traced_handleAll_result] at hstops
  rcases hresult : (p.handleAll ms s).result with e | outcomes
  · -- there is no reply at which the run could stop
    rw [Traced.start, hresult] at hstops
    obtain ⟨i, m, -, -, hundelivered⟩ := hstops
    obtain ⟨reply, t, hfailed⟩ := hundelivered.sink_failed
    rw [(h m reply t).1] at hfailed
    contradiction
  · rw [Traced.start, hresult] at hstops
    exact ⟨outcomes, hstops.1, rfl⟩

/-- **The sink never influences processing.**  If the validators and actions of a processor look at no
more than a view of the state, then with any two sinks that leave this view alone and never fail, every
message of a batch ends alike, and reports, calls and the view afterwards are the same. -/
theorem runsAlike_withSink {p : Processor σ} {a b : Sink σ} (h : p.Within view)
    (ha : a.Delivers view) (hb : b.Delivers view) (batch : List Message) (s : σ) :
    RunsAlike view (p.withSink a) (p.withSink b) batch s := by
  -- traced, so that the calls are part of the states that are compared
  have halike := alike_withSink h ha hb
  obtain ⟨houtcomes, -⟩ :=
    lift_handleAll Step.lifts_agrees halike batch (s := .start s) (t := .start s) rfl
  obtain ⟨-, hseen⟩ :=
    lift_handleBatch Step.lifts_agrees halike batch (s := .start s) (t := .start s) rfl
  obtain ⟨hstate, hcalls⟩ := Prod.mk.inj hseen
  rw [traced_handleAll_result, traced_handleAll_result] at houtcomes
  rw [(traced_handleBatch_eq _ _ _).2, (traced_handleBatch_eq _ _ _).2] at hstate
  -- a delivering sink lets all messages end, and one run ends exactly as the other does
  obtain ⟨outcomes, hlength, hran⟩ := exists_outcomes (p := p.withSink a) ha batch s
  have hran' : ((p.withSink b).handleAll batch s).result = .ok outcomes := houtcomes.symm.trans hran
  exact {
    outcomes := ⟨outcomes, hlength, hran, hran'⟩
    report := ⟨_, result_handleBatch_of_ok hran, result_handleBatch_of_ok hran'⟩
    state := hstate
    calls := hcalls }

end Processor

end StreamControl
