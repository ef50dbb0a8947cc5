import StreamControl.Proofs.Dispatch.Sinks

/-!
# Batches in a row

A processor keeps nothing between messages but the state, so a batch can be cut anywhere: what is
done for two batches in a row is what is done for the two as one (`Processor.handleAll_append`).
Only the report is made once for each batch, and reports add up (`Report.tally_append`).

The counts of a report stand in fixed proportions (`Report.Balanced`), whatever was counted.  They
also agree with the sink, which is called once for each message whose outcome counts as answered
(`Processor.length_replies_turns`).  `Processor.handleBatch_exact` puts both together.
-/

namespace StreamControl

/-! ## The proportions of a report -/

/-- Every message received ended in one of four ways; those that were refused were answered, and of
the others at most those that were completed. -/
structure Report.Balanced (r : Report) : Prop where
  received : r.received = r.dropped + r.completed + r.rejected + r.failed
  refused_le : r.rejected + r.failed ≤ r.acknowledged
  acknowledged_le : r.acknowledged ≤ r.rejected + r.failed + r.completed

namespace Report

theorem balanced_zero : zero.Balanced := ⟨rfl, Nat.le_refl 0, Nat.le_refl 0⟩

/-- Counting one more outcome keeps the proportions. -/
theorem Balanced.record {r : Report} (h : r.Balanced) (o : Outcome) : (r.record o).Balanced := by
  obtain ⟨hreceived, hrefused, hacknowledged⟩ := h
  cases o with
  | completed acknowledged => constructor <;> grind [Report.record]
  | _ => constructor <;> simp only [Report.record] <;> omega

theorem balanced_tally (outcomes : List Outcome) : (tally outcomes).Balanced :=
  List.foldlRecOn outcomes Report.record balanced_zero fun _ hr o _ => hr.record o

end Report

/-- Fates that all end give their outcomes one by one. -/
theorem Fate.map_result_of_mapM {fates : List Fate} {outcomes : List Outcome}
    (h : fates.mapM Fate.result = .ok outcomes) : fates.map Fate.result = outcomes.map .ok := by
  induction fates generalizing outcomes with
  | nil =>
    cases h
    rfl
  | cons fate fates ih =>
    rw [List.mapM_cons] at h
    -- `mapM` succeeds only if each of the two parts does
    rcases hfate : fate.result with e | outcome
    · rw [hfate] at h
      contradiction
    · rcases hfates : fates.mapM Fate.result with e | others
      · rw [hfate, hfates] at h
        contradiction
      · rw [hfate, hfates] at h
        cases h
        rw [List.map_cons, List.map_cons, hfate, ih hfates]

namespace Outcome

/-- The reply to a message that ended. -/
def reply? : Outcome → Option Reply
  | .dropped => none
  | .completed acknowledged => if acknowledged then some .ok else none
  | .rejected f => some f.reply
  | .failed detail => some (.because .generalError detail)

/-- A reply is sent exactly if the outcome counts as answered. -/
theorem isAnswered_eq (outcome : Outcome) : outcome.isAnswered = outcome.reply?.isSome := by
  cases outcome with
  | completed acknowledged => cases acknowledged <;> rfl
  | _ => rfl

end Outcome

namespace Processor

variable {σ : Type}

/-! ## Two batches as one -/

/-- Handling messages and then others is handling all of them, unless it stops among the first. -/
theorem handleAll_append (p : Processor σ) (ms rest : List Message) (s : σ) :
    p.handleAll (ms ++ rest) s =
      match p.handleAll ms s with
      | ⟨.error e, t, events⟩ => ⟨.error e, t, events⟩
      | ⟨.ok outcomes, t, events⟩ =>
        ⟨(p.handleAll rest t).result.map (outcomes ++ ·), (p.handleAll rest t).state,
          events ++ (p.handleAll rest t).events⟩ := by
  induction ms generalizing s with
  | nil =>
    rcases hrest : p.handleAll rest s with ⟨e | outcomes, t, events⟩
    · simp [handleAll, Step.pure_apply, hrest, Except.map]
    · simp [handleAll, Step.pure_apply, hrest, Except.map]
  | cons m ms ih =>
    rw [List.cons_append, handleAll, handleAll, Step.bind_apply, Step.bind_apply]
    -- either run stops where the first message fails, or goes on in the state that it left
    rcases p.handle m s with ⟨e | outcome, t, events⟩
    · rfl
    · dsimp only
      rw [Step.bind_apply, Step.bind_apply, ih]
      rcases p.handleAll ms t with ⟨e | outcomes, u, events'⟩
      · simp [Step.pure_apply]
      · dsimp only
        rcases hrest : p.handleAll rest u with ⟨e | others, v, events''⟩
        · simp [Step.pure_apply, hrest, Except.map]
        · simp [Step.pure_apply, hrest, Except.map]

/-- A batch that stops among its messages is not reported. -/
theorem handleBatch_of_error {p : Processor σ} {batch : List Message} {s : σ} {e : Undelivered}
    (h : (p.handleAll batch s).result = .error e) :
    p.handleBatch batch s = ⟨.error e, (p.handleAll batch s).state, (p.handleAll batch s).events⟩ := by
  rw [handleBatch, Step.bind_apply, h]
  simp [Step.pure_apply]

/-- The turns of two batches in a row are those of the first and then, unless it stops, those of the
second. -/
theorem turns_append (p : Processor σ) (ms rest : List Message) (s : σ) :
    p.turns (ms ++ rest) s =
      p.turns ms s ++ match (p.handleAll ms s).result with
        | .error _ => []
        | .ok _ => p.turns rest (p.handleAll ms s).state := by
  induction ms generalizing s with
  | nil => rfl
  | cons m ms ih =>
    rw [List.cons_append, turns, turns, handleAll, Step.bind_apply, List.cons_append]
    -- a message that stops the run stops both sides before the second batch begins
    rcases p.handle m s with ⟨e | outcome, t, events⟩
    · rfl
    · dsimp only
      rw [ih, Step.bind_apply]
      rcases p.handleAll ms t with ⟨e | outcomes, u, events'⟩
      · rfl
      · rfl

/-! ## Outcomes and replies -/

/-- The reply is the one that goes with the outcome. -/
theorem reply?_conclude (given : Except Failure Bool) :
    (conclude given).1.reply? = (conclude given).2 := by
  rcases given with e | acknowledge
  · cases e with
    | refused f => rfl
    | internal e => rfl
  · cases acknowledge with
    | true => rfl
    | false => rfl

/-- The sink is handed the reply that goes with the outcome, and no other. -/
theorem replies_calls_of_ok {p : Processor σ} {m : Message} {s : σ} {outcome : Outcome}
    (h : (p.handle m s).result = .ok outcome) :
    (p.calls m s).filterMap Call.reply? = outcome.reply?.toList.map (m, ·) := by
  -- a message reaches the sink only through `conclude`, whose outcome tells the reply
  rcases hmatch : p.match? m with _ | ⟨branch, route⟩
  · obtain ⟨hresult, -, hcalls⟩ := handle_unmatched hmatch s
    cases hresult.symm.trans h
    rw [hcalls]
    rfl
  · have hgoes := reply?_conclude (route.execute m s).result
    rcases hreply : conclude (route.execute m s).result with ⟨ended, _ | reply⟩
    · obtain ⟨hresult, -, hcalls⟩ := handle_unanswered hmatch hreply
      cases hresult.symm.trans h
      rw [hreply] at hgoes
      rw [hcalls, replies_execute, hgoes]
      rfl
    · obtain ⟨-, hcalls, hresult⟩ := handle_answered hmatch hreply
      rw [hresult] at h
      rw [hreply] at hgoes
      rw [hcalls, List.filterMap_append, replies_execute]
      -- the message ended, so its reply was delivered
      rcases hsent : (p.sink m reply (route.execute m s).state).result with source | ⟨⟩
      · rw [hsent] at h
        contradiction
      · rw [hsent] at h
        cases h
        rw [hgoes]
        rfl

/-- The sink is called for a message exactly if its outcome counts as answered. -/
theorem length_replies_calls {p : Processor σ} {m : Message} {s : σ} {outcome : Outcome}
    (h : (p.handle m s).result = .ok outcome) :
    ((p.calls m s).filterMap Call.reply?).length = if outcome.isAnswered then 1 else 0 := by
  rw [replies_calls_of_ok h, List.length_map, outcome.isAnswered_eq]
  rcases outcome.reply? with _ | reply
  · rfl
  · rfl

/-- The sink is called once for each message that counts as answered. -/
theorem length_replies_turns {p : Processor σ} {ms : List Message} {s : σ}
    {outcomes : List Outcome} (h : (p.handleAll ms s).result = .ok outcomes) :
    ((p.turns ms s).flatten.filterMap Call.reply?).length = outcomes.countP Outcome.isAnswered := by
  induction ms generalizing s outcomes with
  | nil =>
    cases h
    rfl
  | cons m ms ih =>
    obtain ⟨outcome, others, rfl, hfirst, hrest, -⟩ := handleAll_cons_of_ok h
    rw [turns, hfirst, List.flatten_cons, List.filterMap_append, List.length_append,
      length_replies_calls hfirst, ih hrest, List.countP_cons, Nat.add_comm]

theorem length_outcomes {p : Processor σ} {ms : List Message} {s : σ} {outcomes : List Outcome}
    (h : (p.handleAll ms s).result = .ok outcomes) : outcomes.length = ms.length := by
  have hstops := p.handleAll_stops ms (t := .start s) fun _ hc => absurd hc List.not_mem_nil
  unfold Ran.Ends at hstops
  rw [traced_handleAll_result, Traced.start, h] at hstops
  exact hstops.1

/-! ## Main result -/

/-- Behind a batch that stops among its messages, more messages change nothing. -/
theorem handleBatch_append_of_error {p : Processor σ} {batch : List Message} {s : σ}
    {e : Undelivered} (h : (p.handleAll batch s).result = .error e) (rest : List Message) :
    p.handleBatch (batch ++ rest) s = p.handleBatch batch s ∧
      p.batchCalls (batch ++ rest) s = p.batchCalls batch s := by
  have hboth := p.handleAll_append batch rest s
  have hturns := p.turns_append batch rest s
  rcases hfirst : p.handleAll batch s with ⟨given, t, events⟩
  rw [hfirst] at h hboth hturns
  cases h
  rw [handleBatch_of_error (congrArg Ran.result hfirst),
    handleBatch_of_error (congrArg Ran.result hboth), hboth, hfirst, batchCalls_eq_turns,
    batchCalls_eq_turns, hturns, List.append_nil]
  exact ⟨rfl, rfl⟩

/-- Behind a batch that is handled to its end, other messages are handled as a batch of their own;
the reports add up. -/
theorem handleBatch_append_of_ok {p : Processor σ} {batch : List Message} {s : σ}
    {outcomes : List Outcome} (h : (p.handleAll batch s).result = .ok outcomes)
    (rest : List Message) :
    let t := (p.handleAll batch s).state
    (p.handleBatch (batch ++ rest) s).result =
        (p.handleBatch rest t).result.map (Report.tally outcomes).merge ∧
      (p.handleBatch (batch ++ rest) s).state = (p.handleBatch rest t).state ∧
      p.batchCalls (batch ++ rest) s = p.batchCalls batch s ++ p.batchCalls rest t ∧
      (p.handleAll (batch ++ rest) s).events =
        (p.handleAll batch s).events ++ (p.handleAll rest t).events := by
  have hboth := p.handleAll_append batch rest s
  have hturns := p.turns_append batch rest s
  rcases hfirst : p.handleAll batch s with ⟨given, t, events⟩
  rw [hfirst] at h hboth hturns
  cases h
  have hresult : (p.handleAll (batch ++ rest) s).result =
      (p.handleAll rest t).result.map (outcomes ++ ·) := congrArg Ran.result hboth
  refine ⟨?_, ?_, ?_, congrArg Ran.events hboth⟩
  · -- the reports add up if there is a second one; else its error is that of both
    rcases hsecond : (p.handleAll rest t).result with e | others
    · rw [hsecond] at hresult
      rw [handleBatch_of_error hresult, handleBatch_of_error hsecond]
      rfl
    · rw [hsecond] at hresult
      rw [result_handleBatch_of_ok hresult, result_handleBatch_of_ok hsecond, Report.tally_append]
      rfl
  · rw [handleBatch_state, handleBatch_state, hboth]
  · rw [batchCalls_eq_turns, batchCalls_eq_turns, batchCalls_eq_turns, hturns,
      List.flatten_append]

/-- **Batches compose, and the report is exact.**  If a batch stops at a reply that cannot be
delivered, more messages behind it change nothing.  Otherwise a batch and others behind it do what
the two do one after the other: the calls, the state, what is logged about the messages, and the sum
of the reports, or the error of the second; sums of reports can be taken in any order.  The report
then counts how each message ended, and how often the sink was called. -/
theorem handleBatch_exact (p : Processor σ) (batch rest : List Message) (s : σ) :
    let first := p.handleBatch batch s
    let both := p.handleBatch (batch ++ rest) s
    (match first.result with
      | .error _ => both = first ∧ p.batchCalls (batch ++ rest) s = p.batchCalls batch s
      | .ok report =>
        let second := p.handleBatch rest first.state
        (both.result = second.result.map report.merge ∧ both.state = second.state ∧
          p.batchCalls (batch ++ rest) s =
            p.batchCalls batch s ++ p.batchCalls rest first.state ∧
          (p.handleAll (batch ++ rest) s).events =
            (p.handleAll batch s).events ++ (p.handleAll rest first.state).events) ∧
        (∃ outcomes : List Outcome, (p.fates batch s).map Fate.result = outcomes.map .ok ∧
          outcomes.length = batch.length ∧
          report =
            { received := batch.length
              dropped := outcomes.countP Outcome.isDropped
              completed := outcomes.countP Outcome.isCompleted
              rejected := outcomes.countP Outcome.isRejected
              failed := outcomes.countP Outcome.isFailed
              acknowledged := ((p.batchCalls batch s).filterMap Call.reply?).length }) ∧
        report.received = report.dropped + report.completed + report.rejected + report.failed ∧
        report.rejected + report.failed ≤ report.acknowledged ∧
        report.acknowledged ≤ report.rejected + report.failed + report.completed) ∧
    ∀ a b c : Report, (a.merge b).merge c = a.merge (b.merge c) ∧ a.merge b = b.merge a ∧
      a.merge .zero = a ∧ Report.zero.merge a = a := by
  intro first both
  refine ⟨?_, fun a b c => ⟨a.merge_assoc b c, a.merge_comm b, a.merge_zero, a.zero_merge⟩⟩
  -- the first batch decides: it stops at an undelivered reply, or it ends
  rcases hfirst : (p.handleAll batch s).result with e | outcomes
  · have hresult : first.result = .error e :=
      congrArg Ran.result (handleBatch_of_error hfirst)
    rw [hresult]
    exact handleBatch_append_of_error hfirst rest
  · have hresult : first.result = .ok (.tally outcomes) := result_handleBatch_of_ok hfirst
    have hstate : first.state = (p.handleAll batch s).state := p.handleBatch_state batch s
    -- the tally counts answered outcomes, the statement calls of the sink
    have hanswered : outcomes.countP Outcome.isAnswered =
        ((p.batchCalls batch s).filterMap Call.reply?).length := by
      rw [batchCalls_eq_turns, length_replies_turns hfirst]
    have hbalanced := Report.balanced_tally outcomes
    rw [hresult, hstate]
    refine ⟨handleBatch_append_of_ok hfirst rest, ⟨outcomes, ?_, length_outcomes hfirst, ?_⟩,
      hbalanced.received, hbalanced.refused_le, hbalanced.acknowledged_le⟩
    · exact Fate.map_result_of_mapM (p.result_handleAll batch s ▸ hfirst)
    · rw [Report.tally_eq, length_outcomes hfirst, hanswered]

end Processor

end StreamControl
