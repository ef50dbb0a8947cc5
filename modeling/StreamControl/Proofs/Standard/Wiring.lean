import StreamControl.Proofs.Dispatch.Policies
import StreamControl.Proofs.Standard.Reserved

/-!
# The standard registry on its streams

`Standard.Wiring` puts the two standard processors over a state that holds the streams somehow, with
sinks that deliver every reply.  Each processor follows a policy on the streams (`definitionPolicy`,
`insertPolicy`), made of the verdicts of its commands, so that all there is to say about a run of the
registry is said about the streams alone: `Wiring.account_eq`, `Wiring.dispatch_eq` and their forms
for messages dispatched one at a time.

No message is answered by both processors (`insertPolicy_eq_none`).
-/

namespace StreamControl

variable {σ : Type}

instance (m : Message) (command : Option String) : Decidable (m.Names command) :=
  decidable_of_iff (m.operation?.any (Commands.isNamedBy · command) = true) <| by
    rw [Message.names_iff, Option.any_eq_true]

/-- A message names at most one command. -/
theorem Message.Names.eq {m : Message} {a b : String} (ha : m.Names (some a))
    (hb : m.Names (some b)) : Operation.fold a = Operation.fold b :=
  ha.fold_operationOrEmpty.symm.trans hb.fold_operationOrEmpty

namespace Standard

/-! ## Policies -/

/-- A message asks to create or to drop a stream. -/
abbrev IsDefinition (m : Message) : Prop :=
  m.Names (some Operation.create) ∨ m.Names (some Operation.drop)

/-- A message asks to send an event. -/
abbrev IsInsert (m : Message) : Prop := m.Names (some Operation.insert)

/-- What becomes of the streams with messages that create and drop them. -/
def definitionPolicy : Policy Streams := fun m =>
  if m.Names (some Operation.create) then some ⟨true, createVerdict m⟩
  else if m.Names (some Operation.drop) then some ⟨true, dropVerdict m⟩
  else none

/-- What becomes of the streams with messages that send events. -/
def insertPolicy : Policy Streams := fun m =>
  if IsInsert m then some ⟨false, insertVerdict m⟩ else none

theorem definitionPolicy_of_create {m : Message} (h : m.Names (some Operation.create)) :
    definitionPolicy m = some ⟨true, createVerdict m⟩ := if_pos h

theorem definitionPolicy_of_drop {m : Message} (h : m.Names (some Operation.drop)) :
    definitionPolicy m = some ⟨true, dropVerdict m⟩ := by
  have hcreate : ¬ m.Names (some Operation.create) := fun hcreate =>
    absurd (hcreate.eq h) (by decide)
  rw [definitionPolicy, if_neg hcreate, if_pos h]

theorem insertPolicy_of_insert {m : Message} (h : IsInsert m) :
    insertPolicy m = some ⟨false, insertVerdict m⟩ := if_pos h

theorem definitionPolicy_eq_none {m : Message} (h : ¬ IsDefinition m) :
    definitionPolicy m = none := by
  rw [definitionPolicy, if_neg fun hcreate => h (.inl hcreate), if_neg fun hdrop => h (.inr hdrop)]

theorem insertPolicy_eq_none {m : Message} (h : ¬ IsInsert m) : insertPolicy m = none := if_neg h

/-- A message that defines a stream sends no event. -/
theorem IsDefinition.not_isInsert {m : Message} (h : IsDefinition m) : ¬ IsInsert m := by
  intro hinsert
  rcases h with hcreate | hdrop
  · exact absurd (hcreate.eq hinsert) (by decide)
  · exact absurd (hdrop.eq hinsert) (by decide)

/-! ## Wirings -/

/-- The standard processors over streams that are a part of the state, with sinks that deliver every
reply and leave the streams alone. -/
structure Wiring (σ : Type) where
  part : Part σ Streams
  get_set : ∀ s t, part.get (part.set s t) = t
  /-- Where the processor that creates and drops streams sends its replies. -/
  sink : Sink σ
  config : Config
  store : StoreService σ
  delivers : sink.Delivers part.get
  delivers_insert : (insertSink config store).Delivers part.get

namespace Wiring

/-- The processor that creates and drops streams. -/
def definition (w : Wiring σ) : Processor σ := Standard.definition (Streams.service w.part) w.sink

/-- The processor that sends events. -/
def insert (w : Wiring σ) : Processor σ :=
  Standard.insert (Streams.service w.part) w.config w.store

/-- The two processors in their order. -/
def registry (w : Wiring σ) : Registry σ where
  processors := [w.definition, w.insert]
  distinct := by
    change ["stream_definition", "insert"].Nodup
    decide

/-- The streams in a state. -/
def streams (w : Wiring σ) (s : σ) : Streams := w.part.get s

/-- An engine, with its streams and its store. -/
def engine (config : Config) : Wiring Engine where
  part := Engine.streamsPart
  get_set := fun _ _ => rfl
  sink := .storing (TimedStore.service Engine.storePart) config.coordinationRoot
  config := config
  store := TimedStore.service Engine.storePart
  delivers := fun _ _ _ => ⟨rfl, rfl⟩
  delivers_insert := by
    intro m reply s
    unfold insertSink
    split
    · exact ⟨rfl, rfl⟩
    · exact ⟨rfl, rfl⟩

theorem registry_engine (config : Config) : (engine config).registry = Standard.registry config :=
  rfl

/-! ### The processors follow their policies -/

theorem follows_definition (w : Wiring σ) : w.definition.Follows w.streams definitionPolicy := by
  refine Processor.follows w.delivers ?_ ?_
  · intro m hnone
    refine definitionPolicy_eq_none ?_
    -- a message that names a command takes a branch
    have hfree : ∀ branch, ¬ (definitionBuilder (Streams.service w.part) w.sink).Takes m branch := by
      intro branch htakes
      obtain ⟨route, -, hmatch⟩ := Builder.match?_of_takes htakes
      cases hnone.symm.trans hmatch
    rintro (hcreate | hdrop)
    · exact hfree .start hcreate
    · exact hfree .stop ⟨hdrop, hfree .start⟩
  · intro m branch route hmatch
    obtain ⟨htakes, hroute⟩ := Builder.takes_of_match? hmatch
    cases branch with
    | start =>
      exact ⟨_, definitionPolicy_of_create htakes, execute_create w.get_set hroute m⟩
    | stop => exact ⟨_, definitionPolicy_of_drop htakes.1, execute_drop w.get_set hroute m⟩

theorem follows_insert (w : Wiring σ) : w.insert.Follows w.streams insertPolicy := by
  refine Processor.follows w.delivers_insert ?_ ?_
  · -- an event would have taken the only branch there is
    intro m hnone
    refine insertPolicy_eq_none ?_
    intro hinsert
    have htakes : (insertBuilder (Streams.service w.part) w.config w.store).Takes m .start := hinsert
    obtain ⟨route, -, hmatch⟩ := Builder.match?_of_takes htakes
    cases hnone.symm.trans hmatch
  · intro m branch route hmatch
    obtain ⟨htakes, hroute⟩ := Builder.takes_of_match? hmatch
    cases branch with
    | start => exact ⟨_, insertPolicy_of_insert htakes, execute_insert w.get_set hroute m⟩
    | stop => cases hroute

/-! ### Runs of the registry -/

theorem account_eq (w : Wiring σ) (batch : List Message) (s : σ) :
    w.registry.account batch s =
      definitionPolicy.entries insertPolicy batch (w.streams s)
        (definitionPolicy.afterAll batch (w.streams s)) :=
  Registry.account_of_follows rfl w.follows_definition w.follows_insert batch s

theorem dispatch_eq (w : Wiring σ) (batch : List Message) (s : σ) :
    let defined := definitionPolicy.afterAll batch (w.streams s)
    (w.registry.dispatch batch s).result =
        .ok [("stream_definition", definitionPolicy.report batch (w.streams s)),
          ("insert", insertPolicy.report batch defined)] ∧
      w.streams (w.registry.dispatch batch s).state = insertPolicy.afterAll batch defined :=
  Registry.dispatch_of_follows rfl w.follows_definition w.follows_insert batch s

theorem accountSingly_eq (w : Wiring σ) (ms : List Message) (s : σ) :
    w.registry.accountSingly ms s =
      ms.zipWith .paired (definitionPolicy.answersSingly insertPolicy ms (w.streams s)) :=
  Registry.accountSingly_of_follows rfl w.follows_definition w.follows_insert ms s

theorem dispatchSingly_eq (w : Wiring σ) (ms : List Message) (s : σ) :
    let answers := definitionPolicy.answersSingly insertPolicy ms (w.streams s)
    (w.registry.dispatchSingly ms s).result =
        .ok [("stream_definition", .tally (answers.map (·.1.1))),
          ("insert", .tally (answers.map (·.2.1)))] ∧
      w.streams (w.registry.dispatchSingly ms s).state =
        definitionPolicy.afterSingly insertPolicy ms (w.streams s) :=
  Registry.dispatchSingly_of_follows rfl w.follows_definition w.follows_insert ms s

end Wiring

end Standard

end StreamControl
