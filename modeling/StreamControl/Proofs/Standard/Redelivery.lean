import StreamControl.Proofs.Standard.Locality

/-!
# Delivering a batch again

When a batch is delivered a second time, its creations may now be refused and its drops may hit streams
that it created itself.  The streams come out the same (`Standard.Wiring.redelivery_idempotent`).

The reason is found stream by stream.  What the messages of a batch make of a stream is a `Remake`: if
one of them drops it, then afterwards there is what the first valid creation behind the last drop
declares; if none does, a stream that exists stays, and else there is what the first valid creation
declares.  Applying a remake twice comes to applying it once (`Remake.apply_apply`).
-/

namespace StreamControl

variable {σ : Type} {stream : String}

/-! ## Remakes -/

/-- What messages that create and drop streams make of one stream. -/
inductive Remake
  /-- A stream that exists stays; in its absence the declared one is created, if any. -/
  | fallback (declared : Option (List Declaration))
  /-- A user's stream is dropped; in the end there is the declared one, if any. -/
  | fixed (declared : Option (List Declaration))

namespace Remake

/-- The state of a stream that a user has just created. -/
def created (stream : String) (declared : List Declaration) : StreamState :=
  ⟨.user stream declared, []⟩

/-- The state of a stream after a remake.  What the engine owns is not touched. -/
def apply (stream : String) : Remake → Option StreamState → Option StreamState
  | fallback declared, state => state.or (declared.map (created stream))
  | fixed declared, state =>
    if state.any (!·.schema.userDefined) then state else declared.map (created stream)

/-- One remake and then another. -/
def andThen : Remake → Remake → Remake
  | fallback declared, fallback declared' => fallback (declared.or declared')
  | fixed declared, fallback declared' => fixed (declared.or declared')
  | _, fixed declared => fixed declared

theorem andThen_fixed (a : Remake) (declared : Option (List Declaration)) :
    a.andThen (fixed declared) = fixed declared := by
  cases a with
  | fallback _ => rfl
  | fixed _ => rfl

/-- What the engine owns survives every remake. -/
theorem apply_engine (a : Remake) {state : StreamState} (h : state.schema.userDefined = false) :
    a.apply stream (some state) = some state := by
  cases a with
  | fallback declared => rfl
  | fixed declared => rw [apply, Option.any_some, h, Bool.not_false, if_pos rfl]

/-- If there is a stream, a user created it. -/
def ByUser (state : Option StreamState) : Prop :=
  ∀ found, state = some found → found.schema.userDefined = true

theorem byUser_created (stream : String) (declared : Option (List Declaration)) :
    ByUser (declared.map (created stream)) := by
  intro found hfound
  obtain ⟨columns, -, rfl⟩ := Option.map_eq_some_iff.1 hfound
  rfl

/-- A drop leaves nothing of what a user created. -/
theorem apply_fixed (declared : Option (List Declaration)) {state : Option StreamState}
    (h : ByUser state) : (fixed declared).apply stream state = declared.map (created stream) := by
  rcases state with _ | found
  · rfl
  · rw [apply, Option.any_some, h found rfl, Bool.not_true, if_neg Bool.false_ne_true]

theorem ByUser.apply {state : Option StreamState} (h : ByUser state) (a : Remake) :
    ByUser (a.apply stream state) := by
  cases a with
  | fallback declared =>
    intro found hfound
    rcases Option.or_eq_some_iff.1 hfound with hold | ⟨-, hnew⟩
    · exact h found hold
    · exact byUser_created stream declared found hnew
  | fixed declared =>
    rw [apply_fixed declared h]
    exact byUser_created stream declared

theorem apply_andThen (a b : Remake) (state : Option StreamState) :
    (a.andThen b).apply stream state = b.apply stream (a.apply stream state) := by
  -- the engine's streams stay as they are throughout
  by_cases hengine : ∃ found, state = some found ∧ found.schema.userDefined = false
  · obtain ⟨found, rfl, hfound⟩ := hengine
    rw [apply_engine _ hfound, apply_engine _ hfound, apply_engine _ hfound]
  have huser : ByUser state := by
    intro found hfound
    exact eq_true_of_ne_false fun hfalse => hengine ⟨found, hfound, hfalse⟩
  cases b with
  | fallback declared' =>
    cases a with
    | fallback declared =>
      rw [andThen, apply, apply, apply, Option.or_assoc, Option.map_or]
    | fixed declared =>
      rw [andThen, apply_fixed _ huser, apply_fixed _ huser, apply, Option.map_or]
  | fixed declared' =>
    rw [andThen_fixed, apply_fixed _ huser, apply_fixed _ (huser.apply a)]

theorem andThen_self (a : Remake) : a.andThen a = a := by
  cases a with
  | fallback declared => rw [andThen, Option.or_self]
  | fixed declared => rfl

/-- A remake that is made again changes nothing more. -/
theorem apply_apply (a : Remake) (state : Option StreamState) :
    a.apply stream (a.apply stream state) = a.apply stream state := by
  rw [← apply_andThen, andThen_self]

/-- Which schema there is after a remake depends on the schema before it, not on the events. -/
theorem map_schema_apply (a : Remake) {state state' : Option StreamState}
    (h : state.map (·.schema) = state'.map (·.schema)) :
    (a.apply stream state).map (·.schema) = (a.apply stream state').map (·.schema) := by
  cases a with
  | fallback declared => rw [apply, apply, Option.map_or, Option.map_or, h]
  | fixed declared =>
    -- who owns the stream is part of its schema
    have hany : state.any (!·.schema.userDefined) = state'.any (!·.schema.userDefined) := by
      have hmap := congrArg (·.any (!·.userDefined)) h
      rw [Option.any_map, Option.any_map] at hmap
      exact hmap
    rw [apply, apply, hany]
    split
    · exact h
    · rfl

end Remake

/-! ## What a batch makes of a stream -/

/-- The declarations of a creation, if every column has a type and none is declared twice. -/
def Message.declared? (m : Message) (stream : String) : Option (List Declaration) :=
  (Streams.declarations stream m.columns).toOption.filter fun declared =>
    (Streams.firstRepeated? [] (declared.map (·.name))).isNone

theorem Message.declared?_eq_some_iff {m : Message} {declared : List Declaration} :
    m.declared? stream = some declared ↔
      Streams.declarations stream m.columns = .ok declared ∧
        Streams.firstRepeated? [] (declared.map (·.name)) = none := by
  rw [declared?, Option.filter_eq_some_iff, Option.isNone_iff_eq_none]
  refine and_congr_left ?_
  intro _
  rcases Streams.declarations stream m.columns with e | columns
  · exact iff_of_false nofun nofun
  · exact ⟨fun h => congrArg _ (Option.some.inj h), fun h => congrArg _ (Except.ok.inj h)⟩

namespace Standard

/-- What a message makes of a stream. -/
def remake (stream : String) (m : Message) : Remake :=
  if m.stream? = some stream then
    if m.Names (some Operation.create) then .fallback (m.declared? stream)
    else if m.Names (some Operation.drop) then .fixed none
    else .fallback none
  else .fallback none

/-- What messages make of a stream, one after the other. -/
def remakeAll (stream : String) : List Message → Remake
  | [] => .fallback none
  | m :: ms => (remake stream m).andThen (remakeAll stream ms)

section Messages

variable {m : Message} {t t' : Streams}

theorem contains_of_get? {found : StreamState} (h : t.get? stream = some found) :
    t.contains stream = true := by
  rw [Streams.contains, h]
  rfl

/-- A stream that is missing is created if its declarations are valid. -/
theorem createVerdict_eq_ok_iff (hstream : m.stream? = some stream) :
    createVerdict m t = .ok t' ↔ t.get? stream = none ∧
      ∃ declared, m.declared? stream = some declared ∧ t' = t.install (.user stream declared) := by
  rw [createVerdict, verdictOn_eq_ok_iff]
  constructor
  · rintro ⟨other, hother, -, hdecided⟩
    cases hstream.symm.trans hother
    -- the validator and the action both refuse a name that is taken
    split at hdecided
    · contradiction
    · obtain ⟨declared, hdeclared, hunrepeated, hfree, hafter⟩ :=
        Streams.create_eq_ok_iff.1 (mapError_eq_ok_iff.1 hdecided)
      exact ⟨Streams.get?_eq_none_of_contains hfree, declared,
        Message.declared?_eq_some_iff.2 ⟨hdeclared, hunrepeated⟩, hafter⟩
  · rintro ⟨hmissing, declared, hvalid, hafter⟩
    obtain ⟨hdeclared, hunrepeated⟩ := Message.declared?_eq_some_iff.1 hvalid
    have hfree : t.contains stream = false := by
      rw [Streams.contains, hmissing]
      rfl
    refine ⟨stream, hstream, ?_, ?_⟩
    · rw [Streams.admits, Streams.schema?, hmissing]
      rfl
    · rw [hfree, if_neg Bool.false_ne_true]
      exact mapError_eq_ok_iff.2 (Streams.create_eq_ok_iff.2
        ⟨declared, hdeclared, hunrepeated, hfree, hafter⟩)

/-- A stream that a user created is dropped. -/
theorem dropVerdict_eq_ok_iff (hstream : m.stream? = some stream) :
    dropVerdict m t = .ok t' ↔ t.drop stream = .ok t' ∧
      ∃ found, t.get? stream = some found ∧ found.schema.userDefined = true := by
  rw [dropVerdict, verdictOn_eq_ok_iff]
  constructor
  · rintro ⟨other, hother, -, hdecided⟩
    cases hstream.symm.trans hother
    split at hdecided
    · split at hdecided
      · rename_i hcontains hown
        obtain ⟨found, hfound⟩ := Option.isSome_iff_exists.1 hcontains
        rw [Streams.isUserDefined, Streams.schema?, hfound] at hown
        exact ⟨mapError_eq_ok_iff.1 hdecided, found, hfound, hown⟩
      · contradiction
    · contradiction
  · -- a user's stream admits every operation, so no validator stops the drop
    rintro ⟨hdrop, found, hfound, hown⟩
    have hcontains : t.contains stream = true := contains_of_get? hfound
    have huser : t.isUserDefined stream = true := by
      rw [Streams.isUserDefined, Streams.schema?, hfound]
      exact hown
    refine ⟨stream, hstream, ?_, ?_⟩
    · rw [Streams.admits, Streams.schema?, hfound, Option.map_some]
      dsimp only
      rw [hown, Bool.true_or]
    · rw [hcontains, huser, if_pos rfl, if_pos rfl]
      exact mapError_eq_ok_iff.2 hdrop

theorem get?_after_create (hcreate : m.Names (some Operation.create))
    (hstream : m.stream? = some stream) (t : Streams) :
    (definitionPolicy.after m t).get? stream =
      (Remake.fallback (m.declared? stream)).apply stream (t.get? stream) := by
  simp only [Policy.after, definitionPolicy_of_create hcreate, Ruling.after]
  rcases hverdict : createVerdict m t with e | t'
  · -- the stream exists, or its declarations are not valid
    rcases hfound : t.get? stream with _ | found
    · rcases hdeclared : m.declared? stream with _ | declared
      · exact hfound
      · have hmade := (createVerdict_eq_ok_iff hstream).2 ⟨hfound, declared, hdeclared, rfl⟩
        cases hverdict.symm.trans hmade
    · exact hfound
  · obtain ⟨hmissing, declared, hdeclared, rfl⟩ := (createVerdict_eq_ok_iff hstream).1 hverdict
    rw [hmissing, hdeclared]
    exact (Streams.get?_install t _ stream).trans (if_pos rfl)

theorem get?_after_drop (hdrop : m.Names (some Operation.drop))
    (hstream : m.stream? = some stream) (t : Streams) :
    (definitionPolicy.after m t).get? stream =
      (Remake.fixed none).apply stream (t.get? stream) := by
  simp only [Policy.after, definitionPolicy_of_drop hdrop, Ruling.after]
  rcases hverdict : dropVerdict m t with e | t'
  · -- the stream is missing, or the engine owns it
    rcases hfound : t.get? stream with _ | found
    · exact hfound
    · refine hfound.trans (Remake.apply_engine _ ?_).symm
      by_contra hown
      have hmade := (dropVerdict_eq_ok_iff hstream).2
        ⟨Streams.drop_eq_ok_iff.2 ⟨contains_of_get? hfound, rfl⟩, found, hfound,
          eq_true_of_ne_false hown⟩
      cases hverdict.symm.trans hmade
  · obtain ⟨hdropped, found, hfound, hown⟩ := (dropVerdict_eq_ok_iff hstream).1 hverdict
    have hafter := (Streams.get?_drop hdropped stream).trans (if_pos rfl)
    refine hafter.trans (Remake.apply_fixed none ?_).symm
    intro other hother
    cases hfound.symm.trans hother
    exact hown

theorem get?_after_definition (stream : String) (m : Message) (t : Streams) :
    (definitionPolicy.after m t).get? stream =
      (remake stream m).apply stream (t.get? stream) := by
  have hstays : (Remake.fallback none).apply stream (t.get? stream) = t.get? stream := by
    rw [Remake.apply, Option.map_none, Option.or_none]
  unfold remake
  -- a message for another stream, or for none, leaves this one alone
  by_cases hstream : m.stream? = some stream
  · rw [if_pos hstream]
    by_cases hcreate : m.Names (some Operation.create)
    · rw [if_pos hcreate]
      exact get?_after_create hcreate hstream t
    rw [if_neg hcreate]
    by_cases hdrop : m.Names (some Operation.drop)
    · rw [if_pos hdrop]
      exact get?_after_drop hdrop hstream t
    · have hnone : definitionPolicy m = none := by
        refine definitionPolicy_eq_none ?_
        rintro (h | h)
        · exact hcreate h
        · exact hdrop h
      rw [if_neg hdrop, Policy.after_of_none hnone, hstays]
  · have hwithin : m.Within {stream}ᶜ := by
      rintro other hother rfl
      exact hstream hother
    rw [if_neg hstream, hstays]
    exact (local_definitionPolicy.spares t hwithin).streams stream rfl

end Messages

theorem get?_afterAll_definition (stream : String) (batch : List Message) (t : Streams) :
    (definitionPolicy.afterAll batch t).get? stream =
      (remakeAll stream batch).apply stream (t.get? stream) := by
  induction batch generalizing t with
  | nil =>
    rw [Policy.afterAll_nil, remakeAll, Remake.apply, Option.map_none, Option.or_none]
  | cons m ms ih =>
    rw [Policy.afterAll_cons, ih, get?_after_definition, remakeAll, Remake.apply_andThen]

/-! ## What events leave alone -/

theorem schema?_after_insert (stream : String) (m : Message) (t : Streams) :
    (insertPolicy.after m t).schema? stream = t.schema? stream := by
  by_cases hinsert : IsInsert m
  · simp only [Policy.after, insertPolicy_of_insert hinsert, Ruling.after]
    rcases hverdict : insertVerdict m t with e | t'
    · rfl
    · obtain ⟨other, -, -, hdecided⟩ := verdictOn_eq_ok_iff.1 hverdict
      -- an event is appended to its stream, whose schema is not touched
      split at hdecided
      · have hsend := Streams.get?_send (mapError_eq_ok_iff.1 hdecided) stream
        change t'.schema? stream = t.schema? stream
        rw [Streams.schema?, Streams.schema?, hsend]
        split
        · rename_i hother
          rw [hother, Option.map_map]
          rfl
        · rfl
      · contradiction
  · rw [Policy.after_of_none (insertPolicy_eq_none hinsert)]

theorem schema?_afterAll_insert (stream : String) (batch : List Message) (t : Streams) :
    (insertPolicy.afterAll batch t).schema? stream = t.schema? stream := by
  induction batch generalizing t with
  | nil => rfl
  | cons m ms ih => rw [Policy.afterAll_cons, ih, schema?_after_insert]

/-! ## Main result -/

theorem afterAll_definition_twice (batch : List Message) (t : Streams) :
    definitionPolicy.afterAll batch (definitionPolicy.afterAll batch t) =
      definitionPolicy.afterAll batch t := by
  refine Streams.ext_get? ?_ (local_definitionPolicy.agreeOn_empty batch _).operations
  intro stream
  rw [get?_afterAll_definition, get?_afterAll_definition, Remake.apply_apply]

/-- Which schemas there are after a batch is a matter of its definitions alone. -/
theorem schema?_afterAll (stream : String) (batch : List Message) (t : Streams) :
    (insertPolicy.afterAll batch (definitionPolicy.afterAll batch t)).schema? stream =
      ((remakeAll stream batch).apply stream (t.get? stream)).map (·.schema) := by
  rw [schema?_afterAll_insert, Streams.schema?, get?_afterAll_definition]

/-- **Delivering a batch again is idempotent.**  If the processor that creates and drops streams is
given a batch twice, the streams are those after the first time, events and all.  If the whole
registry is, then the same streams exist with the same schemas and owners as after the first time. -/
theorem Wiring.redelivery_idempotent (w : Wiring σ) (batch : List Message) (s : σ) :
    w.streams (w.definition.handleBatch batch (w.definition.handleBatch batch s).state).state =
        w.streams (w.definition.handleBatch batch s).state ∧
      let first := w.registry.dispatch batch s
      let again := w.registry.dispatch batch first.state
      ∀ stream, (w.streams again.state).contains stream = (w.streams first.state).contains stream ∧
        (w.streams again.state).schema? stream = (w.streams first.state).schema? stream ∧
        (w.streams again.state).isUserDefined stream =
          (w.streams first.state).isUserDefined stream := by
  constructor
  · rw [w.follows_definition.view_handleBatch, w.follows_definition.view_handleBatch]
    exact afterAll_definition_twice batch (w.streams s)
  intro first again stream
  have hfirst : w.streams first.state = _ := (w.dispatch_eq batch s).2
  have hagain : w.streams again.state = _ := (w.dispatch_eq batch first.state).2
  have hshape : (w.streams first.state).schema? stream =
      ((remakeAll stream batch).apply stream ((w.streams s).get? stream)).map (·.schema) := by
    rw [hfirst, schema?_afterAll]
  -- the batch remakes each stream, and the same remake twice is one
  have hschema : (w.streams again.state).schema? stream =
      (w.streams first.state).schema? stream := by
    calc (w.streams again.state).schema? stream
        = ((remakeAll stream batch).apply stream
            ((w.streams first.state).get? stream)).map (·.schema) := by
          rw [hagain, schema?_afterAll]
      _ = ((remakeAll stream batch).apply stream ((remakeAll stream batch).apply stream
            ((w.streams s).get? stream))).map (·.schema) := Remake.map_schema_apply _ hshape
      _ = (w.streams first.state).schema? stream := by rw [Remake.apply_apply, hshape]
  have hcontains : ∀ t : Streams, t.contains stream = (t.schema? stream).isSome := fun t =>
    Option.isSome_map.symm
  refine ⟨?_, hschema, ?_⟩
  · rw [hcontains, hcontains, hschema]
  · rw [Streams.isUserDefined, Streams.isUserDefined, hschema]

-- the events of a batch are sent again when the whole registry is given it again
example :
    let w := Wiring.engine Config.default
    let batch : List Message := [.addressed "CREATE" "orders", .addressed "INSERT" "orders"]
    let first := w.registry.dispatch batch (Engine.new Config.default (.still 0))
    let again := w.registry.dispatch batch first.state
    (w.streams first.state).events "orders" = [[]] ∧
      (w.streams again.state).events "orders" = [[], []] := by decide +kernel

end Standard

end StreamControl
