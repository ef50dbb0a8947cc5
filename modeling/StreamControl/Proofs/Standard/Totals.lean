import StreamControl.Proofs.Dispatch.Turns
import StreamControl.Proofs.Standard.Acknowledgments
import StreamControl.Proofs.Standard.Batches
import StreamControl.Proofs.Standard.Definitions
import StreamControl.Proofs.Standard.Insertions
import StreamControl.Proofs.Standard.Isolation

/-!
# Every dispatch goes through

The standard processors give a reason of their own for whatever they refuse: no message fails in a way
that they do not foresee (`Defines.foreseen`, `Inserts.foreseen`), and no reply is lost, be it stored
or logged.  Since their commands differ in more than the case of letters, no message is carried out by
both.  `Standard.Wiring.dispatch_settles` puts this together for an engine that sends its replies to
a store or to the log.
-/

namespace StreamControl

variable {σ τ : Type}

/-! ## Reports of a policy -/

namespace Policy

variable {q : Policy τ}

/-- A policy under which no message fails reports no failure. -/
theorem report_failed (h : ∀ m t, (q.answer m t).1.isFailed = false) (ms : List Message) (t : τ) :
    (q.report ms t).failed = 0 := by
  rw [report, Report.tally_eq, List.countP_eq_zero]
  intro outcome houtcome
  obtain ⟨answer, hanswer, rfl⟩ := List.mem_map.1 houtcome
  obtain ⟨i, hi⟩ := List.getElem?_of_mem hanswer
  rw [getElem?_answers] at hi
  obtain ⟨m, -, rfl⟩ := Option.map_eq_some_iff.1 hi
  rw [h]
  exact Bool.false_ne_true

/-- If exactly the messages with a property are not dropped, the others make up the count of those
dropped. -/
theorem report_dropped {wanted : Message → Bool}
    (h : ∀ m t, (q.answer m t).1.isDropped = !wanted m) (ms : List Message) (t : τ) :
    (q.report ms t).received = (q.report ms t).dropped + ms.countP wanted := by
  rw [report, Report.tally_eq]
  dsimp only
  induction ms generalizing t with
  | nil => rfl
  | cons m ms ih =>
    rw [answers, List.map_cons, List.length_cons, List.countP_cons, List.countP_cons, ih, h]
    -- either the message is dropped, or it is counted by what it names
    rcases wanted m with _ | _
    · simp only [Bool.not_false, if_true, Bool.false_eq_true, if_false]
      omega
    · simp only [Bool.not_true, if_true, Bool.false_eq_true, if_false]
      omega

end Policy

namespace Standard

variable {m : Message} {t t' : Streams} {outcome : Outcome} {reply? : Option Reply}

/-! ## Nothing is unforeseen -/

/-- A message does not fail in a way that has no reply code of its own. -/
def Foreseen (answer : Outcome × Option Reply) : Prop :=
  answer.1.isFailed = false ∧ ∀ reply, answer.2 = some reply → reply.code ≠ .generalError

/-- A refusal with a code of its own is foreseen. -/
theorem foreseen_rejected {f : Refusal} (h : f.code ≠ .generalError) :
    Foreseen (.rejected f, some ⟨f.code, some f.detail⟩) := by
  refine ⟨rfl, ?_⟩
  rintro _ ⟨⟩
  exact h

theorem Barred.code_ne {f : Refusal} (h : Barred m t f) : f.code ≠ .generalError := by
  cases h <;> nofun

theorem CreationRefused.code_ne {f : Refusal} (h : CreationRefused m t f) :
    f.code ≠ .generalError := by
  cases h with
  | barred hbarred => exact hbarred.code_ne
  | taken => nofun
  | untyped => nofun
  | repeated => nofun

theorem DropRefused.code_ne {f : Refusal} (h : DropRefused m t f) : f.code ≠ .generalError := by
  cases h with
  | barred hbarred => exact hbarred.code_ne
  | missing => nofun
  | notUserDefined => nofun

theorem InsertionRefused.code_ne {f : Refusal} (h : InsertionRefused m t f) :
    f.code ≠ .generalError := by
  cases h with
  | barred hbarred => exact hbarred.code_ne
  | missing => nofun
  | misfit => nofun

/-- How a creation or a drop ends is foreseen, and only other messages are dropped. -/
theorem Defines.foreseen (h : Defines m t outcome reply? t') :
    Foreseen (outcome, reply?) ∧ outcome.isDropped = !decide (IsDefinition m) := by
  -- every rule names its code, and none of them is that of an internal error
  cases h with
  | ignored hnot => exact ⟨⟨rfl, nofun⟩, by rw [decide_eq_false hnot]; rfl⟩
  | notCreated hnames hrefused =>
    exact ⟨foreseen_rejected hrefused.code_ne, by rw [decide_eq_true (.inl hnames)]; rfl⟩
  | created hnames =>
    refine ⟨⟨rfl, ?_⟩, by rw [decide_eq_true (.inl hnames)]; rfl⟩
    rintro _ ⟨⟩
    nofun
  | notDropped hnames hrefused =>
    exact ⟨foreseen_rejected hrefused.code_ne, by rw [decide_eq_true (.inr hnames)]; rfl⟩
  | dropped hnames =>
    refine ⟨⟨rfl, ?_⟩, by rw [decide_eq_true (.inr hnames)]; rfl⟩
    rintro _ ⟨⟩
    nofun

/-- How an event ends is foreseen, and only other messages are dropped. -/
theorem Inserts.foreseen (h : Inserts m t outcome reply? t') :
    Foreseen (outcome, reply?) ∧ outcome.isDropped = !decide (IsInsert m) := by
  cases h with
  | ignored hnot => exact ⟨⟨rfl, nofun⟩, by rw [decide_eq_false hnot]; rfl⟩
  | notInserted hinsert hrefused =>
    exact ⟨foreseen_rejected hrefused.code_ne, by rw [decide_eq_true hinsert]; rfl⟩
  | inserted hinsert => exact ⟨⟨rfl, nofun⟩, by rw [decide_eq_true hinsert]; rfl⟩

theorem foreseen_definition (m : Message) (t : Streams) :
    Foreseen (definitionPolicy.answer m t) ∧
      (definitionPolicy.answer m t).1.isDropped = !decide (IsDefinition m) := by
  obtain ⟨outcome, reply?, t', hdefines⟩ := exists_defines m t
  rw [hdefines.policy_eq.1]
  exact hdefines.foreseen

theorem foreseen_insert (m : Message) (t : Streams) :
    Foreseen (insertPolicy.answer m t) ∧
      (insertPolicy.answer m t).1.isDropped = !decide (IsInsert m) := by
  obtain ⟨outcome, reply?, t', hinserts⟩ := exists_inserts m t
  rw [hinserts.policy_eq.1]
  exact hinserts.foreseen

namespace Wiring

/-! ## No message is carried out twice -/

/-- A processor calls nothing for a message that it does not answer to. -/
theorem calls_definition_of_not (w : Wiring σ) {m : Message} (h : ¬ IsDefinition m) (s : σ) :
    w.definition.calls m s = [] := by
  have hmatch : w.definition.match? m = none := by
    refine Builder.match?_of_not_takes fun branch htakes => ?_
    cases branch with
    | start => exact h (.inl htakes)
    | stop => exact h (.inr htakes.1)
  exact (Processor.handle_unmatched hmatch s).2.2

theorem calls_insert_of_not (w : Wiring σ) {m : Message} (h : ¬ IsInsert m) (s : σ) :
    w.insert.calls m s = [] := by
  have hmatch : w.insert.match? m = none := by
    refine Builder.match?_of_not_takes fun branch htakes => ?_
    cases branch with
    | start => exact h htakes
    | stop =>
      obtain ⟨_, _, _, _, hcommand, _⟩ := htakes.1
      contradiction
  exact (Processor.handle_unmatched hmatch s).2.2

/-- What is called for a message is a turn at one of the two processors, or nothing. -/
theorem turn_eq (w : Wiring σ) (batch : List Message) (s : σ) (i : Nat) :
    w.registry.turn batch s i = [] ∨ ∃ p m t, w.registry.turn batch s i = Processor.calls p m t := by
  have hturns : w.registry.turn batch s i =
      (w.definition.turns batch s)[i]?.getD [] ++
        (w.insert.turns batch (w.definition.handleBatch batch s).state)[i]?.getD [] := by
    rw [Registry.turn, registry, Registry.turnsTo, w.follows_definition.result_handleBatch]
    dsimp only
    rw [Registry.turnsTo, w.follows_insert.result_handleBatch]
    simp only [Registry.turnsTo, List.flatMap_cons, List.flatMap_nil, List.append_nil]
  rw [hturns]
  rcases hdefined : (w.definition.turns batch s)[i]? with _ | turn
  · rcases hinserted : (w.insert.turns batch (w.definition.handleBatch batch s).state)[i]?
      with _ | turn
    · exact .inl rfl
    · obtain ⟨m, u, -, rfl⟩ := Processor.getElem?_turns hinserted
      exact .inr ⟨_, m, u, rfl⟩
  · obtain ⟨m, u, hm, rfl⟩ := Processor.getElem?_turns hdefined
    rcases hinserted : (w.insert.turns batch (w.definition.handleBatch batch s).state)[i]?
      with _ | turn
    · exact .inr ⟨_, m, u, List.append_nil _⟩
    · obtain ⟨m', u', hm', rfl⟩ := Processor.getElem?_turns hinserted
      obtain rfl : m = m' := Option.some.inj (hm.symm.trans hm')
      dsimp only [Option.getD_some]
      -- the message names the command of one processor at most
      by_cases hinsert : IsInsert m
      · rw [w.calls_definition_of_not fun hdefinition => hdefinition.not_isInsert hinsert]
        exact .inr ⟨_, m, u', rfl⟩
      · rw [w.calls_insert_of_not hinsert, List.append_nil]
        exact .inr ⟨_, m, u, rfl⟩

/-- Both processors together count the messages that name one of their commands. -/
theorem countP_apart (batch : List Message) :
    batch.countP (fun m => IsDefinition m) + batch.countP (fun m => IsInsert m) =
      batch.countP fun m => IsDefinition m ∨ IsInsert m := by
  induction batch with
  | nil => rfl
  | cons m ms ih =>
    rw [List.countP_cons, List.countP_cons, List.countP_cons, ← ih]
    -- no message names commands of both processors
    by_cases hinsert : IsInsert m
    · have hdefinition : ¬ IsDefinition m := fun hdefinition => hdefinition.not_isInsert hinsert
      simp only [hinsert, hdefinition, false_or, decide_true, decide_false, Bool.false_eq_true,
        if_true, if_false]
      omega
    · simp only [hinsert, or_false, decide_false, Bool.false_eq_true, if_false]
      omega

end Wiring

/-! ## Where replies go -/

/-- Where an engine sends the replies to messages that create and drop streams: to its store, below
some root, or to the log. -/
inductive Destination
  | store (root : String)
  | log

/-- The sink of a destination. -/
def Destination.sink : Destination → Sink Engine
  | .store root => .storing (TimedStore.service Engine.storePart) root
  | .log => .logging

theorem Destination.delivers (d : Destination) : d.sink.Delivers Engine.streamsPart.get := by
  intro m reply s
  cases d with
  | store root => exact ⟨rfl, rfl⟩
  | log => exact ⟨rfl, rfl⟩

namespace Wiring

/-- An engine that sends its replies to a destination. -/
def acknowledging (config : Config) (d : Destination) : Wiring Engine :=
  { engine config with sink := d.sink, delivers := d.delivers }

theorem registry_acknowledging (config : Config) :
    (acknowledging config (.store config.coordinationRoot)).registry = Standard.registry config :=
  rfl

/-- **A dispatch of the standard registry always goes through, and no message is carried out twice.**
Both processors report the batch and no failure, no reply tells of an internal error, every message
is dropped by at least one of them, and for no message do two actions run or are two replies sent.
What the processors did not drop are the messages that create, drop or feed a stream. -/
theorem dispatch_settles (config : Config) (d : Destination) (batch : List Message) (s : Engine) :
    let w := acknowledging config d
    ∃ defined inserted : Report,
      (w.registry.dispatch batch s).result =
        .ok [("stream_definition", defined), ("insert", inserted)] ∧
      defined.failed = 0 ∧ inserted.failed = 0 ∧
      (∀ sent ∈ (w.registry.calls batch s).filterMap Call.reply?, sent.2.code ≠ .generalError) ∧
      (∀ entry ∈ w.registry.account batch s, ∃ first second : Outcome,
        entry.fates.map Fate.result = [.ok first, .ok second] ∧
          first.isFailed = false ∧ second.isFailed = false ∧
          (first = .dropped ∨ second = .dropped)) ∧
      (∀ i, ((w.registry.turn batch s i).filterMap Call.action?).length ≤ 1 ∧
        ((w.registry.turn batch s i).filterMap Call.reply?).length ≤ 1) ∧
      defined.received + inserted.received = defined.dropped + inserted.dropped +
        batch.countP fun m => IsDefinition m ∨ IsInsert m := by
  intro w
  refine ⟨_, _, (w.dispatch_eq batch s).1,
    Policy.report_failed (fun m t => (foreseen_definition m t).1.1) batch _,
    Policy.report_failed (fun m t => (foreseen_insert m t).1.1) batch _, ?_, ?_, ?_, ?_⟩
  · -- each reply was given by one of the two policies, which foresee their codes
    intro sent hsent
    rw [w.replies_dispatch] at hsent
    rcases List.mem_append.1 hsent with hsent | hsent
    · obtain ⟨-, t, hreply⟩ := Policy.mem_replies hsent
      exact (foreseen_definition sent.1 t).1.2 _ hreply
    · obtain ⟨-, t, hreply⟩ := Policy.mem_replies hsent
      exact (foreseen_insert sent.1 t).1.2 _ hreply
  · intro entry hentry
    rw [w.account_eq] at hentry
    obtain ⟨m, t, t', rfl⟩ := Policy.exists_of_mem_entries hentry
    refine ⟨_, _, rfl, (foreseen_definition m t).1.1, (foreseen_insert m t').1.1, ?_⟩
    -- a message that is for one processor is not for the other
    rcases policies_apart m with hnone | hnone
    · exact .inl (congrArg Prod.fst (Policy.answer_of_none hnone))
    · exact .inr (congrArg Prod.fst (Policy.answer_of_none hnone))
  · -- a turn is that of one message at one processor, or none
    intro i
    obtain hnone | ⟨p, m, t, hturn⟩ := w.turn_eq batch s i
    · rw [hnone]
      exact ⟨Nat.zero_le 1, Nat.zero_le 1⟩
    · rw [hturn]
      exact p.calls_once m t
  · -- per processor, what was not dropped is counted by what it names
    rw [Policy.report_dropped (fun m t => (foreseen_definition m t).2),
      Policy.report_dropped (fun m t => (foreseen_insert m t).2), ← countP_apart]
    omega

/-- Three messages name a command, in mixed letters; a token that begins with a dotted `İ` names
none. -/
theorem dispatch_settles_mixed_case :
    let d : Destination := .store "/replies"
    let w := acknowledging Config.default d
    let s := Engine.new Config.default (.still 0)
    let batch := [Message.addressed "cReAtE" "orders", .addressed "insert" "orders",
      .addressed "\u0130NSERT" "orders", .addressed "Drop" "orders"]
    ∃ defined inserted : Report,
      (w.registry.dispatch batch s).result =
        .ok [("stream_definition", defined), ("insert", inserted)] ∧
      defined.failed = 0 ∧ inserted.failed = 0 ∧
      defined.received + inserted.received = defined.dropped + inserted.dropped + 3 := by
  intro d w s batch
  obtain ⟨defined, inserted, hresult, hdefined, hinserted, -, -, -, hsum⟩ :=
    dispatch_settles Config.default d batch s
  have hcount : batch.countP (fun m => IsDefinition m ∨ IsInsert m) = 3 := by decide
  rw [hcount] at hsum
  exact ⟨defined, inserted, hresult, hdefined, hinserted, hsum⟩

end Wiring

end Standard

end StreamControl
