import StreamControl.Proofs.Dispatch.Invariants

/-!
# The states that a run goes through

An invariant is to hold not only when a batch is done but after every message.  The trail of a run
lists the state it starts in and the state after each message, processor by processor and batch by
batch; a reply that cannot be delivered ends the trail of its batch.  The trail ends where the run
does (`Registry.getLast?_trail`), and what handling one message keeps holds all along it
(`Registry.keeps_trail`).  The trail of a traced run goes through the same states
(`Registry.state_trail_traced`) and has with each the calls made until then.
-/

namespace StreamControl

variable {σ : Type}

/-! ## Trails -/

/-- The states that a processor goes through with its messages, up to the first whose reply cannot be
delivered. -/
def Processor.trail (p : Processor σ) : List Message → σ → List σ
  | [], s => [s]
  | m :: ms, s =>
    let ran := p.handle m s
    s :: match ran.result with
      | .error _ => [ran.state]
      | .ok _ => p.trail ms ran.state

/-- The states that a batch goes through with processors in order. -/
def Registry.trailTo (batch : List Message) : List (Processor σ) → σ → List σ
  | [], s => [s]
  | p :: ps, s =>
    let ran := p.handleBatch batch s
    p.trail batch s ++ match ran.result with
      | .error _ => []
      | .ok _ => trailTo batch ps ran.state

/-- The states that batches go through, dispatched one after the other. -/
def Registry.trail (r : Registry σ) : List (List Message) → σ → List σ
  | [], s => [s]
  | batch :: batches, s =>
    trailTo batch r.processors s ++ r.trail batches (r.dispatch batch s).state

/-! ## Where a trail ends -/

/-- Reporting a batch leaves the state that its last message left. -/
theorem Processor.handleBatch_state (p : Processor σ) (batch : List Message) (s : σ) :
    (p.handleBatch batch s).state = (p.handleAll batch s).state := by
  rw [handleBatch, Step.bind_apply]
  rcases (p.handleAll batch s).result with e | outcomes
  · rfl
  · dsimp only
    -- only the event depends on whether the batch was empty
    split
    · rfl
    · rfl

/-- The report of a batch counts the outcomes of its messages. -/
theorem Processor.result_handleBatch_of_ok {p : Processor σ} {batch : List Message} {s : σ}
    {outcomes : List Outcome} (h : (p.handleAll batch s).result = .ok outcomes) :
    (p.handleBatch batch s).result = .ok (.tally outcomes) := by
  rw [handleBatch, Step.bind_apply, h]
  dsimp only
  -- only the event depends on whether the batch was empty
  split
  · rfl
  · rfl

/-- Messages that all ended ended one after the other: the first, and then the others in the state that
it left. -/
theorem Processor.handleAll_cons_of_ok {p : Processor σ} {m : Message} {ms : List Message} {s : σ}
    {outcomes : List Outcome} (h : (p.handleAll (m :: ms) s).result = .ok outcomes) :
    ∃ outcome others, outcomes = outcome :: others ∧ (p.handle m s).result = .ok outcome ∧
      (p.handleAll ms (p.handle m s).state).result = .ok others ∧
      (p.handleAll (m :: ms) s).events =
        (p.handle m s).events ++ (p.handleAll ms (p.handle m s).state).events := by
  rw [handleAll, Step.bind_apply] at h ⊢
  -- both the first message and the rest must have ended, else there are no outcomes
  rcases hfirst : (p.handle m s).result with e | outcome
  · rw [hfirst] at h
    contradiction
  · rw [hfirst] at h
    dsimp only at h ⊢
    rw [Step.bind_apply] at h ⊢
    rcases hrest : (p.handleAll ms (p.handle m s).state).result with e | others
    · rw [hrest] at h
      contradiction
    · rw [hrest] at h
      cases h
      refine ⟨outcome, others, rfl, rfl, rfl, ?_⟩
      simp [Step.pure_apply]

theorem Processor.getLast?_trail (p : Processor σ) (ms : List Message) (s : σ) :
    (p.trail ms s).getLast? = some (p.handleAll ms s).state := by
  induction ms generalizing s with
  | nil => rfl
  | cons m ms ih =>
    rw [trail, handleAll, Step.bind_apply, List.getLast?_cons]
    rcases (p.handle m s).result with e | outcome
    · rfl
    · dsimp only
      rw [ih, Step.bind_apply]
      rcases (p.handleAll ms (p.handle m s).state).result with e | outcomes
      · rfl
      · rfl

theorem Registry.getLast?_trailTo (batch : List Message) (ps : List (Processor σ)) (s : σ) :
    (trailTo batch ps s).getLast? = some (dispatchTo batch ps s).state := by
  induction ps generalizing s with
  | nil => rfl
  | cons p ps ih =>
    -- the last state of the trail is that of the processor at which the dispatch stopped
    rw [trailTo, dispatchTo, Step.bind_apply, List.getLast?_append, p.getLast?_trail,
      ← p.handleBatch_state]
    rcases (p.handleBatch batch s).result with e | report
    · rfl
    · dsimp only
      rw [ih, Step.bind_apply]
      rcases (dispatchTo batch ps (p.handleBatch batch s).state).result with e | reports
      · rfl
      · rfl

/-- A trail ends in the state that the batches leave. -/
theorem Registry.getLast?_trail (r : Registry σ) (batches : List (List Message)) (s : σ) :
    (r.trail batches s).getLast? =
      some (batches.foldl (fun s batch => (r.dispatch batch s).state) s) := by
  induction batches generalizing s with
  | nil => rfl
  | cons batch batches ih =>
    rw [trail, List.getLast?_append, ih, List.foldl_cons]
    rfl

/-! ## The trail with its calls -/

theorem Processor.state_trail_traced (p : Processor σ) (ms : List Message) (t : Traced σ) :
    (p.traced.trail ms t).map (·.state) = p.trail ms t.state := by
  induction ms generalizing t with
  | nil => rfl
  | cons m ms ih =>
    rw [trail, trail, notes_handle p m t.state t.calls, List.map_cons]
    rcases (p.handle m t.state).result with e | outcome
    · rfl
    · exact congrArg (t.state :: ·) (ih _)

theorem Registry.state_trailTo_traced (batch : List Message) (ps : List (Processor σ))
    (t : Traced σ) :
    (trailTo batch (ps.map Processor.traced) t).map (·.state) = trailTo batch ps t.state := by
  induction ps generalizing t with
  | nil => rfl
  | cons p ps ih =>
    -- tracing adds calls to the state and changes no result, so both trails stop alike
    have hnotes : (p.traced.handleBatch batch).Notes (p.handleBatch batch) :=
      Processor.lift_handleBatch Step.lifts_notes p.alike_traced batch
    rw [List.map_cons, trailTo, trailTo, hnotes t.state t.calls, List.map_append,
      p.state_trail_traced]
    rcases (p.handleBatch batch t.state).result with e | report
    · rfl
    · exact congrArg (p.trail batch t.state ++ ·) (ih _)

/-- Noting the calls changes nothing about the states that a run goes through. -/
theorem Registry.state_trail_traced (r : Registry σ) (batches : List (List Message))
    (t : Traced σ) : (r.traced.trail batches t).map (·.state) = r.trail batches t.state := by
  induction batches generalizing t with
  | nil => rfl
  | cons batch batches ih =>
    rw [trail, trail, List.map_append, ih, r.notes_dispatch batch t.state t.calls]
    exact congrArg (· ++ r.trail batches (r.dispatch batch t.state).state)
      (state_trailTo_traced batch r.processors t)

/-- At the end of a trail all calls of all batches were made. -/
theorem Registry.getLast?_trail_traced (r : Registry σ) (batches : List (List Message))
    (t : Traced σ) : (r.traced.trail batches t).getLast? = some (r.afterBatches batches t) := by
  have hdispatch : (fun t batch => (r.traced.dispatch batch t).state) =
      fun (t : Traced σ) batch =>
        ⟨(r.dispatch batch t.state).state, t.calls ++ r.calls batch t.state⟩ := by
    funext t batch
    exact congrArg Ran.state (r.notes_dispatch batch t.state t.calls)
  rw [getLast?_trail, hdispatch]
  rfl

/-! ## What holds along a trail -/

section Keeps

variable {inv : σ → Prop}

theorem Processor.keeps_trail {p : Processor σ} (h : ∀ m, (p.handle m).Keeps inv)
    (ms : List Message) {s : σ} (hs : inv s) : ∀ t ∈ p.trail ms s, inv t := by
  induction ms generalizing s with
  | nil => exact List.forall_mem_singleton.2 hs
  | cons m ms ih =>
    rw [trail, List.forall_mem_cons]
    refine ⟨hs, ?_⟩
    have hafter : inv (p.handle m s).state := h m s hs
    rcases (p.handle m s).result with e | outcome
    · exact List.forall_mem_singleton.2 hafter
    · exact ih hafter

theorem Registry.keeps_trailTo {ps : List (Processor σ)}
    (h : ∀ p ∈ ps, ∀ m, (p.handle m).Keeps inv) (batch : List Message) {s : σ} (hs : inv s) :
    ∀ t ∈ trailTo batch ps s, inv t := by
  induction ps generalizing s with
  | nil => exact List.forall_mem_singleton.2 hs
  | cons p ps ih =>
    obtain ⟨hp, hps⟩ := List.forall_mem_cons.1 h
    have htrail := p.keeps_trail hp batch hs
    rw [trailTo, List.forall_mem_append]
    refine ⟨htrail, ?_⟩
    -- the next processor starts where the trail of this one ends
    have hafter : inv (p.handleBatch batch s).state := by
      rw [p.handleBatch_state]
      exact htrail _ (List.mem_of_getLast? (p.getLast?_trail batch s))
    rcases (p.handleBatch batch s).result with e | report
    · exact fun t ht => absurd ht List.not_mem_nil
    · exact ih hps hafter

/-- What every processor keeps with every message holds all along a trail. -/
theorem Registry.keeps_trail {r : Registry σ} (h : ∀ p ∈ r.processors, ∀ m, (p.handle m).Keeps inv)
    (batches : List (List Message)) {s : σ} (hs : inv s) : ∀ t ∈ r.trail batches s, inv t := by
  induction batches generalizing s with
  | nil => exact List.forall_mem_singleton.2 hs
  | cons batch batches ih =>
    have htrail := keeps_trailTo h batch hs
    rw [trail, List.forall_mem_append]
    exact ⟨htrail, ih (htrail _ (List.mem_of_getLast? (getLast?_trailTo batch r.processors s)))⟩

end Keeps

end StreamControl
