import Mathlib.Data.List.Induction
import StreamControl.Proofs.Dispatch.Conduct

/-!
# What guards an action

A processor is put together by a sequence of builder calls (`Builder.Part`) in any order.  Whatever
the calls are, each branch runs the two standing validators first and then what was added to it, one
validator of each name (`firstOfEachName`); the first that does not pass ends the message, and the
action runs only if none does.

* `validators_chain`: the chain of a branch, computed from the calls alone.
* `Chain.Runs.cases_calls`: the validators called are a prefix of the chain.
* `guarded_calls`: both together, for every processor and every message.
-/

namespace StreamControl

variable {σ : Type}

/-! ## Builder calls -/

/-- One call to a builder. -/
inductive Builder.Part (σ : Type)
  | start (command : String) (action : Action σ)
  | stop (command : String) (action : Action σ)
  | startValidator (v : Validator σ)
  | stopValidator (v : Validator σ)
  | sink (sink : Sink σ)

namespace Builder

/-- The command and the action that a call gives to a branch. -/
def Part.binding? : Branch → Part σ → Option (String × Action σ)
  | .start, .start command action | .stop, .stop command action => some (command, action)
  | _, _ => none

/-- The validator that a call adds to a branch. -/
def Part.validator? : Branch → Part σ → Option (Validator σ)
  | .start, .startValidator v | .stop, .stopValidator v => some v
  | _, _ => none

/-- The builder after one more call. -/
def give (b : Builder σ) : Part σ → Builder σ
  | .start command action => b.onStart command action
  | .stop command action => b.onStop command action
  | .startValidator v => b.startValidator v
  | .stopValidator v => b.stopValidator v
  | .sink sink => b.withSink sink

/-- The builder after a sequence of calls. -/
def assemble (name : String) (streams : StreamService σ) (parts : List (Part σ)) : Builder σ :=
  parts.foldl give (new name streams)

theorem assemble_concat (name : String) (streams : StreamService σ) (parts : List (Part σ))
    (part : Part σ) :
    assemble name streams (parts ++ [part]) = (assemble name streams parts).give part := by
  simp [assemble, List.foldl_append]

theorem standing_assemble (name : String) (streams : StreamService σ) (parts : List (Part σ)) :
    (assemble name streams parts).standing = [.namesStream, .admitted streams] := by
  induction parts using List.reverseRecOn with
  | nil => rfl
  | append_singleton parts part ih =>
    rw [assemble_concat, ← ih]
    cases part <;> rfl

/-- Of several commands and actions given to a branch the last counts. -/
theorem bound?_assemble (name : String) (streams : StreamService σ) (parts : List (Part σ))
    (branch : Branch) :
    (assemble name streams parts).bound? branch =
      (parts.filterMap (Part.binding? branch)).getLast? := by
  induction parts using List.reverseRecOn with
  | nil => cases branch <;> rfl
  | append_singleton parts part ih =>
    rw [assemble_concat, List.filterMap_append]
    cases branch <;> cases part <;>
      simp [bound?, give, onStart, onStop, startValidator, stopValidator, withSink,
        Part.binding?, ← ih]

/-- Validators stay in the order in which they were added. -/
theorem extras_assemble (name : String) (streams : StreamService σ) (parts : List (Part σ))
    (branch : Branch) :
    (assemble name streams parts).extras branch = parts.filterMap (Part.validator? branch) := by
  induction parts using List.reverseRecOn with
  | nil => cases branch <;> rfl
  | append_singleton parts part ih =>
    rw [assemble_concat, List.filterMap_append, ← ih]
    cases branch <;> cases part <;>
      simp [extras, give, onStart, onStop, startValidator, stopValidator, withSink,
        Part.validator?]

end Builder

/-! ## One validator of each name -/

/-- The validators without those whose name an earlier one has. -/
def firstOfEachName : List (Validator σ) → List (Validator σ)
  | [] => []
  | v :: vs => v :: (firstOfEachName vs).filter (·.name ≠ v.name)

/-- Extending a chain adds the first validator of each name that it does not have yet. -/
theorem Chain.validators_extend (c : Chain σ) (vs : List (Validator σ)) :
    (c.extend vs).validators =
      c.validators ++ (firstOfEachName vs).filter (·.name ∉ c.names) := by
  induction vs generalizing c with
  | nil => simp [extend, firstOfEachName]
  | cons v vs ih =>
    have hextend : c.extend (v :: vs) = (c.push v).extend vs := rfl
    rw [hextend, ih, names_push, firstOfEachName, List.filter_cons, List.filter_filter]
    by_cases htaken : v.name ∈ c.names
    · have hpush : (c.push v).validators = c.validators := by
        unfold push
        rw [dif_pos htaken]
      rw [hpush]
      congr 1
      simp only [htaken, if_true, not_true_eq_false, decide_false, Bool.false_eq_true, if_false]
      refine List.filter_congr fun w _ => ?_
      -- a name that is not in the chain is not the name of `v`
      by_cases hname : w.name = v.name
      · simp [hname, htaken]
      · simp [hname]
    · have hpush : (c.push v).validators = c.validators ++ [v] := by
        unfold push
        rw [dif_neg htaken]
      rw [hpush, List.append_assoc]
      congr 1
      simp only [htaken, if_false, not_false_eq_true, decide_true, if_true, List.cons_append,
        List.nil_append]
      congr 1
      refine List.filter_congr fun w _ => ?_
      simp [List.mem_append]

theorem Chain.validators_ofList (vs : List (Validator σ)) :
    (ofList vs).validators = firstOfEachName vs := by
  rw [ofList, validators_extend]
  simp [empty, names]

/-- The chain of a branch, computed from the builder calls alone. -/
theorem Builder.validators_chain (name : String) (streams : StreamService σ)
    (parts : List (Part σ)) (branch : Branch) :
    ((assemble name streams parts).chain branch).validators =
      firstOfEachName ([.namesStream, .admitted streams] ++
        parts.filterMap (Part.validator? branch)) := by
  rw [chain, standing_assemble, extras_assemble, Chain.validators_ofList]

/-! ## Which validators are called -/

/-- The calls to validators that all pass. -/
def Chain.passing (processor : String) (m : Message) (vs : List (Validator σ)) : List (Call σ) :=
  vs.map fun v => .validator processor m v (.ok ())

@[simp] theorem Chain.validators_passing (processor : String) (m : Message)
    (vs : List (Validator σ)) :
    (passing processor m vs).filterMap Call.validator? = vs.map (·, .ok ()) := by
  rw [passing, List.filterMap_map, ← List.filterMap_eq_map]
  rfl

@[simp] theorem Chain.actions_passing (processor : String) (m : Message)
    (vs : List (Validator σ)) : (passing processor m vs).filterMap Call.action? = [] := by
  rw [passing, List.filterMap_map]
  exact List.filterMap_eq_nil_iff.2 fun _ _ => rfl

/-- A chain that passes called all its validators; one that fails called those before the first that
did not pass, and that one. -/
theorem Chain.Runs.cases_calls {processor : String} {m : Message} {vs : List (Validator σ)}
    {s t : σ} {given : Except Failure Unit} {calls : List (Call σ)}
    (h : Runs processor m vs s given t calls) :
    (given = .ok () ∧ calls = passing processor m vs) ∨
      ∃ passed v e, given = .error e ∧ passed ++ [v] <+: vs ∧
        calls = passing processor m passed ++ [.validator processor m v (.error e)] := by
  induction h with
  | done => exact .inl ⟨rfl, rfl⟩
  | @pass v vs s t given calls hpass hrest ih =>
    rcases ih with ⟨hgiven, rfl⟩ | ⟨passed, w, e, hgiven, hprefix, rfl⟩
    · exact .inl ⟨hgiven, rfl⟩
    · exact .inr ⟨v :: passed, w, e, hgiven, List.cons_prefix_cons.2 ⟨rfl, hprefix⟩, rfl⟩
  | @fail v vs s e hfail =>
    exact .inr ⟨[], v, e, rfl, List.cons_prefix_cons.2 ⟨rfl, List.nil_prefix⟩, rfl⟩

/-- Handling a message that takes a branch makes the calls of the branch, and then at most one to
the sink. -/
theorem Builder.calls_of_takes {b : Builder σ} {m : Message} {branch : Branch}
    (htakes : b.Takes m branch) (s : σ) :
    ∃ given t calls, b.Ends branch m s given t calls ∧
      (b.processor.calls m s = calls ∨
        ∃ reply gave, b.processor.calls m s = calls ++ [.sink b.name m reply gave]) := by
  obtain ⟨result, t, calls, hrule⟩ := exists_handles b m s
  obtain ⟨-, -, hcalls⟩ := hrule.handle_eq
  rw [hcalls]
  -- whichever rule applies, it speaks of the branch that is taken: there is only one
  cases hrule with
  | dropped hnone => exact absurd htakes (hnone branch)
  | unanswered htakes' hends =>
    cases takes_unique htakes' htakes
    exact ⟨_, _, _, hends, .inl rfl⟩
  | answered htakes' hends _ _ =>
    cases takes_unique htakes' htakes
    exact ⟨_, _, _, hends, .inr ⟨_, _, rfl⟩⟩
  | undelivered htakes' hends _ _ =>
    cases takes_unique htakes' htakes
    exact ⟨_, _, _, hends, .inr ⟨_, _, rfl⟩⟩

/-- The validators and the actions that were called, with what the validators gave. -/
theorem Builder.Ends.cases_calls {b : Builder σ} {branch : Branch} {m : Message} {s t : σ}
    {given : Except Failure Bool} {calls : List (Call σ)}
    (h : b.Ends branch m s given t calls) :
    (calls.filterMap Call.validator? = (b.chain branch).validators.map (·, .ok ()) ∧
        ∃ command action, b.bound? branch = some (command, action) ∧
          calls.filterMap Call.action? = [action]) ∨
      ∃ passed v e, passed ++ [v] <+: (b.chain branch).validators ∧
        calls.filterMap Call.validator? = passed.map (·, .ok ()) ++ [(v, .error e)] ∧
        calls.filterMap Call.action? = [] := by
  cases h with
  -- a chain that failed stopped at a validator, and no action was called
  | chain hchain =>
    rcases hchain.cases_calls with ⟨hgiven, _⟩ | ⟨passed, v, e, _, hprefix, rfl⟩
    · contradiction
    · refine .inr ⟨passed, v, e, hprefix, ?_, ?_⟩
      · rw [List.filterMap_append, Chain.validators_passing]
        rfl
      · rw [List.filterMap_append, Chain.actions_passing]
        rfl
  | action hbound hchain =>
    rcases hchain.cases_calls with ⟨_, rfl⟩ | ⟨_, _, _, hgiven, _⟩
    · refine .inl ⟨?_, _, _, hbound, ?_⟩
      · rw [List.filterMap_append, Chain.validators_passing]
        exact List.append_nil _
      · rw [List.filterMap_append, Chain.actions_passing]
        rfl
    · contradiction

/-! ## The standing validators -/

/-- No validator that is added displaces or precedes the standing ones. -/
theorem firstOfEachName_standing (streams : StreamService σ) (extras : List (Validator σ)) :
    ∃ rest, firstOfEachName ([.namesStream, .admitted streams] ++ extras) =
      .namesStream :: .admitted streams :: rest := by
  have hnames : (Validator.admitted streams).name ≠ (Validator.namesStream (σ := σ)).name := by
    simp [Validator.admitted, Validator.asking, Validator.namesStream]
  simp only [List.cons_append, List.nil_append, firstOfEachName, List.filter_cons, hnames, ne_eq,
    not_false_eq_true, decide_true, if_true]
  exact ⟨_, rfl⟩

/-- A branch whose action is called ran its chain to the end. -/
theorem Builder.Ends.runs_of_action {b : Builder σ} {branch : Branch} {m : Message} {s t : σ}
    {given : Except Failure Bool} {calls : List (Call σ)} (h : b.Ends branch m s given t calls)
    (haction : calls.filterMap Call.action? ≠ []) :
    ∃ t calls, Chain.Runs b.name m (b.chain branch).validators s (.ok ()) t calls := by
  cases h with
  | chain hchain =>
    rcases hchain.cases_calls with ⟨hgiven, _⟩ | ⟨passed, v, e, _, _, rfl⟩
    · contradiction
    · rw [List.filterMap_append, Chain.actions_passing] at haction
      exact absurd rfl haction
  | action _ hchain => exact ⟨_, _, hchain⟩

/-- A chain that begins with the standing validators and runs to the end was given a message with a
stream that admits the operation. -/
theorem Chain.Runs.standing_passed {processor : String} {m : Message} {streams : StreamService σ}
    {rest : List (Validator σ)} {s t : σ} {calls : List (Call σ)}
    (h : Runs processor m (.namesStream :: .admitted streams :: rest) s (.ok ()) t calls) :
    ∃ stream, m.stream? = some stream ∧
      (streams.admits stream m.operationOrEmpty s).result = true := by
  cases h with
  | pass hnames hrest =>
    cases hrest with
    | pass hadmitted _ =>
      rcases hstream : m.stream? with _ | stream
      · simp [Validator.namesStream, Validator.addressee, hstream, Step.pure_apply, Except.map]
          at hnames
      · refine ⟨stream, rfl, ?_⟩
        -- the first validator leaves the state as it is, so the service is asked in `s`
        simp only [Validator.admitted, Validator.asking, Validator.addressee, hstream,
          Step.bind_apply, Validator.namesStream, Step.pure_apply] at hadmitted
        by_contra hrefused
        simp [hrefused, Step.pure_apply] at hadmitted

/-! ## Every action is guarded -/

/-- How the calls for a message follow a list of validators.  Either each of them was called once, in
order, and passed, and then the action was called once; or they were called up to the first that did
not pass, and the action was not. -/
def Guarded (listed : List (Validator σ)) (action : Action σ) (calls : List (Call σ)) : Prop :=
  (calls.filterMap Call.validator? = listed.map (·, .ok ()) ∧
      calls.filterMap Call.action? = [action]) ∨
    ∃ passed v e, passed ++ [v] <+: listed ∧
      calls.filterMap Call.validator? = passed.map (·, .ok ()) ++ [(v, .error e)] ∧
      calls.filterMap Call.action? = []

theorem Builder.guarded_of_takes {b : Builder σ} {m : Message} {branch : Branch}
    (htakes : b.Takes m branch) (s : σ) :
    ∃ command action, b.bound? branch = some (command, action) ∧
      Guarded (b.chain branch).validators action (b.processor.calls m s) := by
  obtain ⟨given, t, calls, hends, hcalls⟩ := calls_of_takes htakes s
  -- a call of the sink is neither to a validator nor to an action
  have hvalidators : (b.processor.calls m s).filterMap Call.validator? =
      calls.filterMap Call.validator? := by
    rcases hcalls with h | ⟨reply, gave, h⟩ <;> simp [h, Call.validator?]
  have hactions : (b.processor.calls m s).filterMap Call.action? =
      calls.filterMap Call.action? := by
    rcases hcalls with h | ⟨reply, gave, h⟩ <;> simp [h, Call.action?]
  unfold Guarded
  rw [hvalidators, hactions]
  rcases hends.cases_calls with ⟨hall, command, action, hbound, hcalled⟩ | hstopped
  · exact ⟨command, action, hbound, .inl ⟨hall, hcalled⟩⟩
  · obtain ⟨route, hroute, -⟩ := match?_of_takes htakes
    rw [route?_processor] at hroute
    obtain ⟨⟨command, action⟩, hbound, -⟩ := Option.map_eq_some_iff.1 hroute
    exact ⟨command, action, hbound, .inr hstopped⟩

/-- An action is only called for a message with a stream that admits its operation. -/
theorem Builder.stream_of_action {b : Builder σ} {streams : StreamService σ}
    (hstanding : b.standing = [.namesStream, .admitted streams]) {m : Message} {s : σ}
    (haction : (b.processor.calls m s).filterMap Call.action? ≠ []) :
    ∃ stream, m.stream? = some stream ∧
      (streams.admits stream m.operationOrEmpty s).result = true := by
  -- an action that was called has its branch taken and the chain before it passed
  by_cases htaken : ∃ branch, b.Takes m branch
  · obtain ⟨branch, htakes⟩ := htaken
    obtain ⟨given, t, calls, hends, hcalls⟩ := calls_of_takes htakes s
    have hcalled : calls.filterMap Call.action? ≠ [] := by
      rcases hcalls with h | ⟨reply, gave, h⟩
      · rwa [h] at haction
      · simpa [h, Call.action?] using haction
    obtain ⟨_, _, hruns⟩ := hends.runs_of_action hcalled
    -- the two standing validators keep their places at the head of the chain
    obtain ⟨rest, hchain⟩ := firstOfEachName_standing streams (b.extras branch)
    rw [chain, Chain.validators_ofList, hstanding, hchain] at hruns
    exact hruns.standing_passed
  · obtain ⟨-, -, hcalls⟩ := Processor.handle_unmatched
      (match?_of_not_takes (not_exists.1 htaken)) s
    rw [hcalls] at haction
    exact absurd rfl haction

/-- **No call to a builder weakens the guard of an action.**  Take any sequence of builder calls and
any message that takes a branch.  The validators called are the standing two and then those added to
the branch, in order and one of each name, up to the first that does not pass; the action that was
given to the branch last is called, once, exactly if all of them pass.  So no action ever runs for a
message without a stream, or with an operation that the streams do not admit when they are asked. -/
theorem Builder.guarded_calls (name : String) (streams : StreamService σ) (parts : List (Part σ))
    (m : Message) (s : σ) :
    let b := assemble name streams parts
    let calls := b.processor.calls m s
    (∀ branch, b.Takes m branch →
      let listed := firstOfEachName ([.namesStream, .admitted streams] ++
        parts.filterMap (Part.validator? branch))
      [.namesStream, .admitted streams] <+: listed ∧ (listed.map (·.name)).Nodup ∧
        ∃ command action,
          (parts.filterMap (Part.binding? branch)).getLast? = some (command, action) ∧
            Guarded listed action calls) ∧
      (m.streamName = none ∨ m.streamName = some "" → calls.filterMap Call.action? = []) ∧
      (∀ stream, m.streamName = some stream →
        (streams.admits stream m.operationOrEmpty s).result = false →
          calls.filterMap Call.action? = []) := by
  intro b calls
  have hstanding : b.standing = [.namesStream, .admitted streams] := standing_assemble _ _ _
  refine ⟨?_, ?_, ?_⟩
  · intro branch htakes listed
    have hlisted : (b.chain branch).validators = listed := validators_chain name streams parts branch
    obtain ⟨command, action, hbound, hguarded⟩ := guarded_of_takes htakes s
    rw [hlisted] at hguarded
    refine ⟨?_, ?_, command, action, ?_, hguarded⟩
    · obtain ⟨rest, hrest⟩ := firstOfEachName_standing streams
        (parts.filterMap (Part.validator? branch))
      exact ⟨rest, hrest.symm⟩
    · rw [← hlisted]
      exact (b.chain branch).distinct
    · rw [← bound?_assemble name streams]
      exact hbound
  · -- the first standing validator refuses a message without a stream
    intro habsent
    by_contra haction
    obtain ⟨stream, hstream, -⟩ := stream_of_action hstanding haction
    rcases habsent with h | h <;> simp [Message.stream?, h] at hstream
  · -- the second one asks about the very stream of the message
    intro stream hsent hrefused
    by_contra haction
    obtain ⟨asked, hstream, hadmitted⟩ := stream_of_action hstanding haction
    have hasked : asked = stream := by
      simp only [Message.stream?, hsent, Option.filter_eq_some_iff] at hstream
      exact (Option.some.inj hstream.1).symm
    rw [hasked, hrefused] at hadmitted
    contradiction

/-- A validator that passes everything and takes the name of a standing one does not open a stream of
the engine to creation. -/
theorem Builder.guarded_calls_impostor :
    let streams : StreamService Streams := Streams.service ⟨id, fun _ s => s⟩
    let impostor : Validator Streams := ⟨"stream_allowed", fun _ => pure (.ok ())⟩
    let parts : List (Part Streams) :=
      [.startValidator impostor, .start "CREATE" fun _ => pure (.ok true)]
    let b := assemble "p" streams parts
    let listed := firstOfEachName ([.namesStream, .admitted streams, impostor])
    let s := (Streams.empty []).reserve (.internal "ledger" [])
    let m := Message.addressed "create" "ledger"
    let unaddressed := Message.addressed "create" ""
    (b.Takes m .start ∧ ∃ command action,
      (parts.filterMap (Part.binding? .start)).getLast? = some (command, action) ∧
        Guarded listed action (b.processor.calls m s)) ∧
    (unaddressed.streamName = some "" ∧
      (b.processor.calls unaddressed s).filterMap Call.action? = []) ∧
    (streams.admits "ledger" m.operationOrEmpty s).result = false ∧
      (b.processor.calls m s).filterMap Call.action? = [] := by
  intro streams impostor parts b listed s m unaddressed
  have htakes : b.Takes m .start := ⟨"create", "CREATE", rfl, by decide, rfl, by decide⟩
  have hrefused : (streams.admits "ledger" m.operationOrEmpty s).result = false := by
    have hschema : s.schema? "ledger" = some (.internal "ledger" []) := by
      simp [Streams.schema?, s, Streams.get?_reserve, Schema.internal]
    change s.admits "ledger" m.operationOrEmpty = false
    rw [Streams.admits, hschema]
    rfl
  have hguarded := guarded_calls "p" streams parts m s
  exact ⟨⟨htakes, (hguarded.1 .start htakes).2.2⟩,
    ⟨rfl, (guarded_calls "p" streams parts unaddressed s).2.1 (.inr rfl)⟩,
    hrefused, hguarded.2.2 "ledger" rfl hrefused⟩

end StreamControl
