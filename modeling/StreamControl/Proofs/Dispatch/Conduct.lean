import StreamControl.Dispatch.Builder
import StreamControl.Proofs.Dispatch.Calls

/-!
# What becomes of a message

`Builder.Handles` states by rules what a processor does with a message: which branch is taken, what
is called on the way, what the sink is told, and what the caller learns.  Nothing in the rules
refers to the dispatcher.  `handles_iff` says that the dispatcher does exactly what the rules allow,
in every state and whatever validators, actions and sink the processor was built of.
-/

namespace StreamControl

variable {σ : Type}

/-! ## Which branch a message takes -/

/-- The operation of a message is present and is a given command, up to the case of ASCII letters. -/
def Message.Names (m : Message) (command : Option String) : Prop :=
  ∃ operation c, m.operation = some operation ∧ operation ≠ "" ∧ command = some c ∧
    Operation.fold operation = Operation.fold c

namespace Builder

/-- The command and the action that were given to a branch. -/
def bound? (b : Builder σ) : Branch → Option (String × Action σ)
  | .start => b.start
  | .stop => b.stop

/-- The command that was given to a branch. -/
def command? (b : Builder σ) (branch : Branch) : Option String := (b.bound? branch).map (·.1)

/-- The validators that were added to a branch. -/
def extras (b : Builder σ) : Branch → List (Validator σ)
  | .start => b.startExtras
  | .stop => b.stopExtras

/-- The chain of a branch. -/
def chain (b : Builder σ) (branch : Branch) : Chain σ := .ofList (b.standing ++ b.extras branch)

/-- The start command comes first: a message that names it takes the start branch, and one that
names only the stop command takes the stop branch. -/
def Takes (b : Builder σ) (m : Message) : Branch → Prop
  | .start => m.Names (b.command? .start)
  | .stop => m.Names (b.command? .stop) ∧ ¬ m.Names (b.command? .start)

end Builder

/-! ## What a branch does -/

/-- Validators are called one after the other, each in the state that the one before left, up to
the first that does not pass. -/
inductive Chain.Runs (processor : String) (m : Message) :
    List (Validator σ) → σ → Except Failure Unit → σ → List (Call σ) → Prop
  | done {s : σ} : Runs processor m [] s (.ok ()) s []
  | pass {v : Validator σ} {vs : List (Validator σ)} {s t : σ} {given : Except Failure Unit}
      {calls : List (Call σ)} :
      (v.check m s).result = .ok () → Runs processor m vs (v.check m s).state given t calls →
      Runs processor m (v :: vs) s given t (.validator processor m v (.ok ()) :: calls)
  | fail {v : Validator σ} {vs : List (Validator σ)} {s : σ} {e : Failure} :
      (v.check m s).result = .error e →
      Runs processor m (v :: vs) s (.error e) (v.check m s).state
        [.validator processor m v (.error e)]

/-- A branch ends with the failure of its chain, and then its action is not called; or else with
what its action gives, called once in the state that the chain left. -/
inductive Builder.Ends (b : Builder σ) (branch : Branch) (m : Message) (s : σ) :
    Except Failure Bool → σ → List (Call σ) → Prop
  | chain {e : Failure} {t : σ} {calls : List (Call σ)} :
      Chain.Runs b.name m (b.chain branch).validators s (.error e) t calls →
      Ends b branch m s (.error e) t calls
  | action {command : String} {action : Action σ} {t : σ} {calls : List (Call σ)} :
      b.bound? branch = some (command, action) →
      Chain.Runs b.name m (b.chain branch).validators s (.ok ()) t calls →
      Ends b branch m s (action m t).result (action m t).state
        (calls ++ [.action b.name m action (action m t).result])

/-- The outcome of a branch that is to be answered, with the reply. -/
inductive Answers : Except Failure Bool → Outcome → Reply → Prop
  | completed : Answers (.ok true) (.completed true) ⟨.ok, none⟩
  | rejected (f : Refusal) : Answers (.error (.refused f)) (.rejected f) ⟨f.code, some f.detail⟩
  | failed (e : InternalError) :
      Answers (.error (.internal e)) (.failed e.message) ⟨.generalError, some e.message⟩

/-! ## What a processor does -/

/-- What a processor does with a message `m` in a state `s`: what the caller learns, the state
afterwards, and every call made in between. -/
inductive Builder.Handles (b : Builder σ) (m : Message) (s : σ) :
    Except Undelivered Outcome → σ → List (Call σ) → Prop
  /-- A message that names neither command is dropped, and nothing is called. -/
  | dropped : (∀ branch, ¬ b.Takes m branch) → Handles b m s (.ok .dropped) s []
  /-- An action that takes care of the reply completes the message without the sink. -/
  | unanswered {branch : Branch} {t : σ} {calls : List (Call σ)} :
      b.Takes m branch → b.Ends branch m s (.ok false) t calls →
      Handles b m s (.ok (.completed false)) t calls
  /-- Any other end of the branch is told to the sink once. -/
  | answered {branch : Branch} {given : Except Failure Bool} {t : σ} {calls : List (Call σ)}
      {outcome : Outcome} {reply : Reply} :
      b.Takes m branch → b.Ends branch m s given t calls → Answers given outcome reply →
      (b.sink m reply t).result = .ok () →
      Handles b m s (.ok outcome) (b.sink m reply t).state
        (calls ++ [.sink b.name m reply (.ok ())])
  /-- If the sink fails, the caller learns that instead of the outcome. -/
  | undelivered {branch : Branch} {given : Except Failure Bool} {t : σ} {calls : List (Call σ)}
      {outcome : Outcome} {reply : Reply} {source : DeliveryError} :
      b.Takes m branch → b.Ends branch m s given t calls → Answers given outcome reply →
      (b.sink m reply t).result = .error source →
      Handles b m s (.error ⟨b.name, m.sessionId, m.requestId, source⟩) (b.sink m reply t).state
        (calls ++ [.sink b.name m reply (.error source)])

/-! ## Branches and routes -/

theorem Message.names_iff {m : Message} {command : Option String} :
    m.Names command ↔
      ∃ operation, m.operation? = some operation ∧ Commands.isNamedBy operation command = true := by
  simp only [Names, operation?, Commands.isNamedBy, Option.filter_eq_some_iff, Option.any_eq_true,
    Operation.same_iff, decide_eq_true_eq]
  constructor
  · rintro ⟨operation, c, hsent, hnonempty, hcommand, hsame⟩
    exact ⟨operation, ⟨hsent, hnonempty⟩, c, hcommand, hsame⟩
  · rintro ⟨operation, ⟨hsent, hnonempty⟩, c, hcommand, hsame⟩
    exact ⟨operation, c, hsent, hnonempty, hcommand, hsame⟩

namespace Builder

theorem command?_processor (b : Builder σ) (branch : Branch) :
    b.processor.commands.command? branch = b.command? branch := by
  cases branch <;>
    simp [Commands.command?, Processor.commands, processor, route?, command?, bound?,
      Function.comp_def]

theorem route?_processor (b : Builder σ) (branch : Branch) :
    b.processor.route? branch =
      (b.bound? branch).map fun binding => ⟨binding.1, b.chain branch, binding.2⟩ := by
  cases branch <;> rfl

/-- The dispatcher and the rules agree on which branch a message takes. -/
theorem branch?_processor_iff {b : Builder σ} {m : Message} {branch : Branch} :
    b.processor.commands.branch? m = some branch ↔ b.Takes m branch := by
  have hstart : b.processor.commands.start = b.command? .start := b.command?_processor .start
  have hstop : b.processor.commands.stop = b.command? .stop := b.command?_processor .stop
  unfold Commands.branch?
  rw [hstart, hstop]
  -- the cases follow the tests of `branch?`: the operation, the start command, the stop command
  rcases hop : m.operation? with _ | operation
  · cases branch <;> simp [Takes, Message.names_iff, hop]
  · by_cases hfirst : Commands.isNamedBy operation (b.command? .start) = true
    · cases branch <;> simp [Takes, Message.names_iff, hop, hfirst]
    · by_cases hsecond : Commands.isNamedBy operation (b.command? .stop) = true
      · cases branch <;> simp [Takes, Message.names_iff, hop, hfirst, hsecond]
      · cases branch <;> simp [Takes, Message.names_iff, hop, hfirst, hsecond]

/-- At most one branch is taken. -/
theorem takes_unique {b : Builder σ} {m : Message} {branch other : Branch}
    (h : b.Takes m branch) (h' : b.Takes m other) : branch = other :=
  Option.some.inj ((branch?_processor_iff.2 h).symm.trans (branch?_processor_iff.2 h'))

theorem match?_of_takes {b : Builder σ} {m : Message} {branch : Branch} (h : b.Takes m branch) :
    ∃ route, b.processor.route? branch = some route ∧
      b.processor.match? m = some (branch, route) := by
  have hnamed : m.Names (b.command? branch) := by
    cases branch with
    | start => exact h
    | stop => exact h.1
  obtain ⟨_, c, _, _, hcommand, _⟩ := hnamed
  obtain ⟨binding, hbound, _⟩ := Option.map_eq_some_iff.1 hcommand
  have hroute : b.processor.route? branch = some ⟨binding.1, b.chain branch, binding.2⟩ := by
    rw [route?_processor, hbound]
    rfl
  refine ⟨_, hroute, ?_⟩
  unfold Processor.match?
  rw [branch?_processor_iff.2 h, Option.bind_some, hroute]
  rfl

theorem match?_of_not_takes {b : Builder σ} {m : Message} (h : ∀ branch, ¬ b.Takes m branch) :
    b.processor.match? m = none := by
  have hnone : b.processor.commands.branch? m = none := by
    rcases hbranch : b.processor.commands.branch? m with _ | branch
    · rfl
    · exact absurd (branch?_processor_iff.1 hbranch) (h branch)
  unfold Processor.match?
  rw [hnone]
  rfl

end Builder

/-! ## The dispatcher follows the rules -/

theorem Chain.runAll_cons_of_ok {m : Message} {v : Validator σ} {s : σ}
    (h : (v.check m s).result = .ok ()) (vs : List (Validator σ)) :
    (runAll m (v :: vs) s).result = (runAll m vs (v.check m s).state).result ∧
      (runAll m (v :: vs) s).state = (runAll m vs (v.check m s).state).state := by
  rw [runAll_cons, Step.bind_apply, h]
  exact ⟨rfl, rfl⟩

theorem Chain.runAll_cons_of_error {m : Message} {v : Validator σ} {s : σ} {e : Failure}
    (h : (v.check m s).result = .error e) (vs : List (Validator σ)) :
    (runAll m (v :: vs) s).result = .error e ∧
      (runAll m (v :: vs) s).state = (v.check m s).state := by
  rw [runAll_cons, Step.bind_apply, h]
  cases e <;> exact ⟨rfl, rfl⟩

/-- Running a chain is what the rules for chains describe. -/
theorem Chain.runs_iff {processor : String} {m : Message} {vs : List (Validator σ)} {s t : σ}
    {given : Except Failure Unit} {calls : List (Call σ)} :
    Runs processor m vs s given t calls ↔
      (runAll m vs s).result = given ∧ (runAll m vs s).state = t ∧
        (runAll m (vs.map (Validator.traced processor))).calls s = calls := by
  -- each validator starts in the state that the one before left
  induction vs generalizing s given t calls with
  | nil =>
    constructor
    · intro h
      cases h
      exact ⟨rfl, rfl, rfl⟩
    · rintro ⟨rfl, rfl, rfl⟩
      exact .done
  | cons v vs ih =>
    have hcalls := calls_runAll_cons processor m v vs s
    rcases hcheck : (v.check m s).result with e | ⟨⟩
    · rw [hcheck] at hcalls
      obtain ⟨hresult, hstate⟩ := runAll_cons_of_error hcheck vs
      rw [hresult, hstate, hcalls]
      constructor
      · intro h
        cases h with
        | pass hpass _ => rw [hcheck] at hpass; contradiction
        | fail hfail =>
          cases hcheck.symm.trans hfail
          exact ⟨rfl, rfl, rfl⟩
      · rintro ⟨rfl, rfl, rfl⟩
        exact .fail hcheck
    · rw [hcheck] at hcalls
      obtain ⟨hresult, hstate⟩ := runAll_cons_of_ok hcheck vs
      rw [hresult, hstate, hcalls]
      constructor
      · intro h
        cases h with
        | pass _ hrest =>
          obtain ⟨hgiven, ht, htail⟩ := ih.1 hrest
          exact ⟨hgiven, ht, by rw [htail]⟩
        | fail hfail => rw [hcheck] at hfail; contradiction
      · rintro ⟨rfl, rfl, rfl⟩
        exact .pass hcheck (ih.2 ⟨rfl, rfl, rfl⟩)

/-- Running a branch is what the rules for branches describe. -/
theorem Builder.ends_iff {b : Builder σ} {branch : Branch} {route : Route σ}
    (hroute : b.processor.route? branch = some route) {m : Message} {s t : σ}
    {given : Except Failure Bool} {calls : List (Call σ)} :
    b.Ends branch m s given t calls ↔
      (route.execute m s).result = given ∧ (route.execute m s).state = t ∧
        ((route.traced b.name).execute m).calls s = calls := by
  rw [route?_processor] at hroute
  obtain ⟨⟨command, action⟩, hbound, rfl⟩ := Option.map_eq_some_iff.1 hroute
  rw [Route.calls_execute]
  -- what a route does is known once its chain is: `execute_of_error` and `execute_of_ok`
  constructor
  · intro h
    cases h with
    | chain hchain =>
      obtain ⟨hresult, rfl, rfl⟩ := Chain.runs_iff.1 hchain
      obtain ⟨hend, hstate⟩ := Route.execute_of_error
        (r := ⟨command, b.chain branch, action⟩) hresult
      have hrun : ((b.chain branch).run m s).result = .error _ := hresult
      refine ⟨hend, hstate, ?_⟩
      rw [hrun, List.append_nil]
      rfl
    | action hbound' hchain =>
      cases hbound.symm.trans hbound'
      obtain ⟨hresult, rfl, rfl⟩ := Chain.runs_iff.1 hchain
      obtain ⟨hend, hstate⟩ := Route.execute_of_ok
        (r := ⟨command, b.chain branch, action⟩) hresult
      have hrun : ((b.chain branch).run m s).result = .ok () := hresult
      refine ⟨hend, hstate, ?_⟩
      rw [hrun]
      rfl
  · rintro ⟨rfl, rfl, rfl⟩
    rcases hrun : ((b.chain branch).run m s).result with e | ⟨⟩
    · obtain ⟨hend, hstate⟩ := Route.execute_of_error
        (r := ⟨command, b.chain branch, action⟩) hrun
      rw [hend, hstate, List.append_nil]
      exact .chain (Chain.runs_iff.2 ⟨hrun, rfl, rfl⟩)
    · obtain ⟨hend, hstate⟩ := Route.execute_of_ok
        (r := ⟨command, b.chain branch, action⟩) hrun
      rw [hend, hstate]
      exact .action hbound (Chain.runs_iff.2 ⟨hrun, rfl, rfl⟩)

theorem answers_iff {given : Except Failure Bool} {outcome : Outcome} {reply : Reply} :
    Answers given outcome reply ↔ Processor.conclude given = (outcome, some reply) := by
  constructor
  · intro h
    cases h <;> rfl
  · intro h
    rcases given with e | acknowledge
    · cases e <;> cases h <;> constructor
    · cases acknowledge <;> cases h
      constructor

theorem conclude_eq_none {given : Except Failure Bool} {outcome : Outcome}
    (h : Processor.conclude given = (outcome, none)) : given = .ok false := by
  rcases given with e | acknowledge
  · cases h
  · cases acknowledge <;> cases h
    rfl

namespace Builder

/-- A branch that is to be answered is followed by one call to the sink. -/
theorem handle_of_answers {b : Builder σ} {m : Message} {branch : Branch} {s t : σ}
    {given : Except Failure Bool} {calls : List (Call σ)} {outcome : Outcome} {reply : Reply}
    (htakes : b.Takes m branch) (hends : b.Ends branch m s given t calls)
    (hanswers : Answers given outcome reply) :
    let sent := b.sink m reply t
    (b.processor.handle m s).state = sent.state ∧
      b.processor.calls m s = calls ++ [.sink b.name m reply sent.result] ∧
      (b.processor.handle m s).result =
        match sent.result with
        | .ok () => .ok outcome
        | .error source => .error ⟨b.name, m.sessionId, m.requestId, source⟩ := by
  obtain ⟨route, hroute, hmatch⟩ := match?_of_takes htakes
  obtain ⟨rfl, rfl, rfl⟩ := (ends_iff hroute).1 hends
  exact Processor.handle_answered hmatch (answers_iff.1 hanswers)

/-- A branch that needs no answer ends the message. -/
theorem handle_of_unanswered {b : Builder σ} {m : Message} {branch : Branch} {s t : σ}
    {calls : List (Call σ)} (htakes : b.Takes m branch)
    (hends : b.Ends branch m s (.ok false) t calls) :
    (b.processor.handle m s).result = .ok (.completed false) ∧
      (b.processor.handle m s).state = t ∧ b.processor.calls m s = calls := by
  obtain ⟨route, hroute, hmatch⟩ := match?_of_takes htakes
  obtain ⟨hgiven, rfl, rfl⟩ := (ends_iff hroute).1 hends
  exact Processor.handle_unanswered hmatch (by rw [hgiven]; rfl)

/-- Where a rule applies, it describes what handling the message does. -/
theorem Handles.handle_eq {b : Builder σ} {m : Message} {s t : σ}
    {result : Except Undelivered Outcome} {calls : List (Call σ)}
    (h : b.Handles m s result t calls) :
    (b.processor.handle m s).result = result ∧ (b.processor.handle m s).state = t ∧
      b.processor.calls m s = calls := by
  cases h with
  | dropped hnone => exact Processor.handle_unmatched (match?_of_not_takes hnone) s
  | unanswered htakes hends => exact handle_of_unanswered htakes hends
  -- the last two rules differ in what the sink gives only
  | answered htakes hends hanswers hsink =>
    obtain ⟨hstate, hcalls, hresult⟩ := handle_of_answers htakes hends hanswers
    rw [hsink] at hcalls hresult
    exact ⟨hresult, hstate, hcalls⟩
  | undelivered htakes hends hanswers hsink =>
    obtain ⟨hstate, hcalls, hresult⟩ := handle_of_answers htakes hends hanswers
    rw [hsink] at hcalls hresult
    exact ⟨hresult, hstate, hcalls⟩

/-- Some rule always applies. -/
theorem exists_handles (b : Builder σ) (m : Message) (s : σ) :
    ∃ result t calls, b.Handles m s result t calls := by
  by_cases htaken : ∃ branch, b.Takes m branch
  · obtain ⟨branch, htakes⟩ := htaken
    obtain ⟨route, hroute, -⟩ := match?_of_takes htakes
    -- the branch ends somehow; the reply and the sink choose between the other three rules
    have hends := (ends_iff hroute (m := m) (s := s)).2 ⟨rfl, rfl, rfl⟩
    rcases hconclude : Processor.conclude (route.execute m s).result with ⟨outcome, _ | reply⟩
    · rw [conclude_eq_none hconclude] at hends
      exact ⟨_, _, _, .unanswered htakes hends⟩
    · have hanswers := answers_iff.2 hconclude
      rcases hsink : (b.sink m reply (route.execute m s).state).result with source | ⟨⟩
      · exact ⟨_, _, _, .undelivered htakes hends hanswers hsink⟩
      · exact ⟨_, _, _, .answered htakes hends hanswers hsink⟩
  · exact ⟨_, _, _, .dropped (not_exists.1 htaken)⟩

/-- **A processor does what the rules describe and nothing else.**  For every processor that can be
built, every message and every state, what the caller learns, the state afterwards and the calls
made are those of the one rule that applies. -/
theorem handles_iff (b : Builder σ) (m : Message) (s : σ)
    (result : Except Undelivered Outcome) (t : σ) (calls : List (Call σ)) :
    b.Handles m s result t calls ↔
      (b.processor.handle m s).result = result ∧ (b.processor.handle m s).state = t ∧
        b.processor.calls m s = calls := by
  constructor
  · exact Handles.handle_eq
  · rintro ⟨rfl, rfl, rfl⟩
    -- the rule that applies describes the same run
    obtain ⟨_, _, _, hrule⟩ := exists_handles b m s
    obtain ⟨hresult, hstate, hcalls⟩ := hrule.handle_eq
    rw [hresult, hstate, hcalls]
    exact hrule

/-- A command is known in any mixture of capitals and small letters.  The sign for kelvin is no `k`,
although it looks like one. -/
theorem handles_iff_mixed_case :
    let streams : StreamService Unit :=
      { contains := fun _ => pure false, isUserDefined := fun _ => pure false,
        admits := fun _ _ => pure true, create := fun _ _ => pure (.ok ()),
        drop := fun _ => pure (.ok ()), send := fun _ _ => pure (.ok ()) }
    let action : Action Unit := fun _ => pure (.ok true)
    let b := (Builder.new "p" streams).onStart "KEEP" action
    let m := Message.addressed "kEEp" "orders"
    let kelvin := Message.addressed "\u212aEEP" "orders"
    b.Handles m () (.ok (.completed true)) ()
        [.validator "p" m .namesStream (.ok ()), .validator "p" m (.admitted streams) (.ok ()),
          .action "p" m action (.ok true), .sink "p" m .ok (.ok ())] ∧
      b.processor.calls kelvin () = [] := by
  intro streams action b m kelvin
  refine ⟨?_, ?_⟩
  · dsimp only [b, m, action, streams]
    exact (handles_iff _ _ _ _ _ _).2 ⟨rfl, rfl, rfl⟩
  · -- no branch is taken: the letters differ, and there is no stop command
    have hdropped : b.Handles kelvin () (.ok .dropped) () [] := by
      refine .dropped fun branch htakes => ?_
      cases branch with
      | start =>
        obtain ⟨_, _, ⟨⟩, -, ⟨⟩, hletters⟩ := htakes
        exact absurd hletters (by decide)
      | stop =>
        obtain ⟨_, _, -, -, hcommand, -⟩ := htakes.1
        cases hcommand
    exact ((b.handles_iff kelvin () _ _ _).1 hdropped).2.2

end Builder

end StreamControl
