import Mathlib.Data.List.Chain
import StreamControl.Proofs.Dispatch.Trails
import StreamControl.Proofs.Standard.Redelivery
import StreamControl.Proofs.Streams.Provenance

/-!
# What clients are told about a stream

Clients learn about the life of a stream from the replies to the messages that create and drop it, and
from the events that are accepted.  These notices are read off the calls of a run (`notices`).  They
agree with the streams at all times (`Wiring.lifecycle_as_told`): the acknowledged creations and drops
alternate, the last of them says whether the stream exists, and the last acknowledged creation says
which schema it has and what events were accepted since.

`Tells` lists what one message can make of a stream together with what is told about it, so that no
reply can go wrong without breaking a rule.  `Lifetime` is what holds of all that was told so far, and
every rule keeps it.
-/

namespace StreamControl

variable {σ : Type} {stream : String}

/-- What becomes known about a stream. -/
inductive Notice
  /-- A message that creates or drops the stream is acknowledged with `OK`. -/
  | confirmed (m : Message)
  /-- An event is accepted. -/
  | accepted (m : Message)
deriving DecidableEq, Repr

/-- A message declares these columns, in this order and with these types. -/
def Message.Declares (m : Message) (declared : List Declaration) : Prop :=
  m.columns.map (fun c => (c.name, c.type)) = declared.map fun d => (d.name, some d.type)

/-- Every entry of an event is a column that a creation declares, with a value that its type
accepts. -/
def Message.Admits (creation event : Message) : Prop :=
  ∀ c ∈ event.columns, ∃ d ∈ creation.columns, d.name = c.name ∧
    ∃ type, d.type = some type ∧ type.accepts c.value = true

namespace Standard

/-! ## Notices -/

/-- Whether a message asks to create its stream. -/
def creates (m : Message) : Bool := decide (m.Names (some Operation.create))

/-- What a call makes known about the stream of its message. -/
def notice? : Call σ → Option Notice
  | .sink _ m reply (.ok ()) =>
    if reply.code = .ok ∧ IsDefinition m then some (.confirmed m) else none
  | .action _ m _ (.ok _) => if IsInsert m then some (.accepted m) else none
  | _ => none

/-- What calls make known about a stream, in their order. -/
def notices (stream : String) (calls : List (Call σ)) : List Notice :=
  (calls.filter (·.message.stream? = some stream)).filterMap notice?

/-- The acknowledged messages that created or dropped the stream. -/
def confirmed (told : List Notice) : List Message :=
  told.filterMap fun
    | .confirmed m => some m
    | .accepted _ => none

/-- Whether the stream exists, by what was told last or else by what there was at the start. -/
def stands (existed : Bool) (told : List Notice) : Bool :=
  ((confirmed told).map creates).getLast?.getD existed

/-- The last acknowledged creation. -/
def lastCreation? (told : List Notice) : Option Message := ((confirmed told).filter creates).getLast?

section Concat

variable {told : List Notice} {m : Message}

theorem confirmed_concat_confirmed : confirmed (told ++ [.confirmed m]) = confirmed told ++ [m] :=
  List.filterMap_append

theorem confirmed_concat_accepted : confirmed (told ++ [.accepted m]) = confirmed told :=
  List.filterMap_append.trans (List.append_nil _)

theorem stands_concat_confirmed (existed : Bool) :
    stands existed (told ++ [.confirmed m]) = creates m := by
  rw [stands, confirmed_concat_confirmed, List.map_append, List.map_singleton,
    List.getLast?_concat]
  rfl

theorem lastCreation?_concat_confirmed :
    lastCreation? (told ++ [.confirmed m]) = if creates m then some m else lastCreation? told := by
  rw [lastCreation?, confirmed_concat_confirmed, List.filter_append, List.filter_singleton]
  by_cases hcreates : creates m = true
  · rw [hcreates]
    exact List.getLast?_concat
  · rw [eq_false_of_ne_true hcreates]
    exact congrArg _ (List.append_nil _)

end Concat

/-! ## What one message does -/

/-- What a message can make of a stream, and what is told about it. -/
inductive Tells (stream : String) : Option Schema → List Notice → Option Schema → Prop
  | silent (found : Option Schema) : Tells stream found [] found
  | created {m : Message} {declared : List Declaration} :
      creates m = true → m.Declares declared →
      Tells stream none [.confirmed m] (some (.user stream declared))
  | dropped {m : Message} {schema : Schema} :
      creates m = false → Tells stream (some schema) [.confirmed m] none
  | fed {m : Message} {schema : Schema} :
      schema.violations m.columns = [] →
      Tells stream (some schema) [.accepted m] (some schema)

/-! ### The calls of a message -/

/-- A message makes nothing known about other streams. -/
theorem notices_of_ne {p : Processor σ} {m : Message} {s : σ} (h : m.stream? ≠ some stream) :
    notices stream (p.calls m s) = [] := by
  have hothers : (p.calls m s).filter (·.message.stream? = some stream) = [] := by
    refine List.filter_eq_nil_iff.2 fun c hc => ?_
    rw [(Processor.mem_calls hc).2]
    exact fun hsame => h (of_decide_eq_true hsame)
  rw [notices, hothers]
  rfl

/-- All calls of a message are about its stream. -/
theorem notices_of_eq {p : Processor σ} {m : Message} {s : σ} (h : m.stream? = some stream) :
    notices stream (p.calls m s) = (p.calls m s).filterMap notice? := by
  have hall : (p.calls m s).filter (·.message.stream? = some stream) = p.calls m s := by
    refine List.filter_eq_self.2 fun c hc => ?_
    rw [(Processor.mem_calls hc).2]
    exact decide_eq_true h
  rw [notices, hall]

/-- Of the calls of a route, only a successful action makes anything known, and only about an event. -/
theorem filterMap_notice?_execute (processor : String) (route : Route σ) (m : Message) (s : σ) :
    (((route.traced processor).execute m).calls s).filterMap notice? =
      match (route.execute m s).result with
      | .ok _ => if IsInsert m then [.accepted m] else []
      | .error _ => [] := by
  -- validators make nothing known, so only the action counts
  have hchain : (((route.traced processor).chain.run m).calls s).filterMap notice? = [] := by
    refine List.filterMap_eq_nil_iff.2 fun c hc => ?_
    obtain ⟨v, gave, rfl⟩ := Chain.mem_calls_runAll hc
    rfl
  rw [Route.calls_execute, List.filterMap_append, hchain, List.nil_append]
  rcases hrun : (route.chain.run m s).result with e | ⟨⟩
  · rw [(Route.execute_of_error hrun).1]
    rfl
  · rw [(Route.execute_of_ok hrun).1]
    rcases (route.action m (route.chain.run m s).state).result with e | acknowledge
    · rfl
    · by_cases hinsert : IsInsert m
      · simp [notice?, hinsert]
      · simp [notice?, hinsert]

section Branches

variable {p : Processor σ} {m : Message} {branch : Branch} {route : Route σ} {s : σ}

/-- A message that fails with anything but `OK` makes nothing known. -/
theorem notices_of_failed {e : Failure} (hmatch : p.match? m = some (branch, route))
    (hfailed : (route.execute m s).result = .error e) (hcode : e.reply.code ≠ .ok) :
    notices stream (p.calls m s) = [] := by
  by_cases hstream : m.stream? = some stream
  · -- the reply to a failure is none of `OK`, delivered or not
    have hreply : Processor.conclude (route.execute m s).result = (.ofError e, some e.reply) := by
      rw [hfailed]
      rfl
    rw [notices_of_eq hstream, (Processor.handle_answered hmatch hreply).2.1,
      List.filterMap_append, filterMap_notice?_execute, hfailed]
    rcases (p.sink m e.reply (route.execute m s).state).result with source | ⟨⟩
    · rfl
    · simp [notice?, hcode]
  · exact notices_of_ne hstream

/-- A message that creates or drops its stream makes that known once its reply is delivered. -/
theorem notices_of_confirmed (hmatch : p.match? m = some (branch, route))
    (hstream : m.stream? = some stream) (hdefinition : IsDefinition m)
    (hdone : (route.execute m s).result = .ok true)
    (hdelivered : (p.sink m .ok (route.execute m s).state).result = .ok ()) :
    notices stream (p.calls m s) = [.confirmed m] := by
  have hreply : Processor.conclude (route.execute m s).result = (.completed true, some .ok) := by
    rw [hdone]
    rfl
  rw [notices_of_eq hstream, (Processor.handle_answered hmatch hreply).2.1,
    List.filterMap_append, filterMap_notice?_execute, hdone, hdelivered]
  simp [notice?, Reply.ok, hdefinition, hdefinition.not_isInsert]

/-- An event that is sent makes that known by the action alone. -/
theorem notices_of_accepted (hmatch : p.match? m = some (branch, route))
    (hstream : m.stream? = some stream) (hinsert : IsInsert m)
    (hdone : (route.execute m s).result = .ok false) :
    notices stream (p.calls m s) = [.accepted m] := by
  have hreply : Processor.conclude (route.execute m s).result = (.completed false, none) := by
    rw [hdone]
    rfl
  rw [notices_of_eq hstream, (Processor.handle_unanswered hmatch hreply).2.2,
    filterMap_notice?_execute, hdone]
  exact if_pos hinsert

end Branches

/-! ### Failures -/

/-- If there is a failure, it is answered with something else than `OK`. -/
def NeverOk {α : Type} (x : Except Failure α) : Prop := ∀ e, x = .error e → e.reply.code ≠ .ok

theorem neverOk_error {α : Type} {e : Failure} (h : e.reply.code ≠ .ok) :
    NeverOk (.error e : Except Failure α) := by
  rintro _ ⟨⟩
  exact h

theorem neverOk_mapError (x : Except StreamError Streams) :
    NeverOk (x.mapError .ofStreamError) := by
  rcases x with e | t
  · refine neverOk_error ?_
    cases e <;> nofun
  · nofun

theorem neverOk_verdictOn {m : Message} {t : Streams}
    {decide : (stream : String) → Streams → Except Failure Streams}
    (h : ∀ stream, NeverOk (decide stream t)) : NeverOk (verdictOn m decide t) := by
  unfold verdictOn
  rcases m.stream? with _ | stream
  · exact neverOk_error nofun
  · dsimp only
    split
    · exact h stream
    · exact neverOk_error nofun

theorem neverOk_createVerdict (m : Message) (t : Streams) : NeverOk (createVerdict m t) := by
  refine neverOk_verdictOn fun stream => ?_
  split
  · exact neverOk_error nofun
  · exact neverOk_mapError _

theorem neverOk_dropVerdict (m : Message) (t : Streams) : NeverOk (dropVerdict m t) := by
  refine neverOk_verdictOn fun stream => ?_
  split
  · split
    · exact neverOk_mapError _
    · exact neverOk_error nofun
  · exact neverOk_error nofun

theorem neverOk_insertVerdict (m : Message) (t : Streams) : NeverOk (insertVerdict m t) := by
  refine neverOk_verdictOn fun stream => ?_
  split
  · exact neverOk_mapError _
  · exact neverOk_error nofun

/-! ### The two processors -/

/-- A message that a processor does not answer to changes nothing and makes nothing known. -/
theorem tells_of_unmatched {p : Processor σ} {m : Message} (hmatch : p.match? m = none)
    (view : σ → Streams) (s : σ) :
    Tells stream ((view s).schema? stream) (notices stream (p.calls m s))
      ((view (p.handle m s).state).schema? stream) := by
  obtain ⟨-, hstate, hcalls⟩ := Processor.handle_unmatched hmatch s
  rw [hstate, hcalls]
  exact .silent _

/-- A message that is refused changes nothing and makes nothing known, so only its success is to be
looked at. -/
theorem tells_of_ruling {view : σ → Streams} {p : Processor σ} {q : Policy Streams}
    (hfollows : p.Follows view q) {m : Message} {branch : Branch} {route : Route σ}
    (hmatch : p.match? m = some (branch, route)) {ruling : Ruling Streams}
    (hruling : q m = some ruling)
    (hdecides : (route.execute m).Decides view ruling.acknowledge ruling.verdict) {s : σ}
    (hnever : NeverOk (ruling.verdict (view s)))
    (hdone : ∀ t, ruling.verdict (view s) = .ok t →
      (route.execute m s).result = .ok ruling.acknowledge →
      Tells stream ((view s).schema? stream) (notices stream (p.calls m s)) (t.schema? stream)) :
    Tells stream ((view s).schema? stream) (notices stream (p.calls m s))
      ((view (p.handle m s).state).schema? stream) := by
  obtain ⟨hgiven, -⟩ := hdecides.given_after s
  have hafter : view (p.handle m s).state = ruling.after (view s) := by
    rw [(hfollows m s).2, Policy.after, hruling]
  rw [Ruling.given] at hgiven
  rw [hafter, Ruling.after]
  -- a refusal leaves the schema as it was and is silent
  rcases hverdict : ruling.verdict (view s) with e | t
  · rw [hverdict] at hgiven
    rw [notices_of_failed hmatch hgiven (hnever e hverdict)]
    exact .silent _
  · rw [hverdict] at hgiven
    exact hdone t hverdict hgiven

theorem declares_of_declarations {columns : List Column} {declared : List Declaration}
    (h : Streams.declarations stream columns = .ok declared) :
    columns.map (fun c => (c.name, c.type)) = declared.map fun d => (d.name, some d.type) := by
  induction columns generalizing declared with
  | nil =>
    cases h
    rfl
  | cons c cs ih =>
    rw [Streams.declarations] at h
    -- a column without a type ends the declarations with a failure
    split at h
    · contradiction
    · rename_i type htype
      split at h
      · contradiction
      · rename_i rest hrest
        cases h
        rw [List.map_cons, List.map_cons, ih hrest, htype]

theorem schema?_after_definition_of_ne {m : Message} (h : m.stream? ≠ some stream) (t : Streams) :
    (definitionPolicy.after m t).schema? stream = t.schema? stream := by
  rw [Streams.schema?, get?_after_definition, remake, if_neg h, Remake.apply, Option.map_none,
    Option.or_none]
  rfl

/-- An event that is accepted fits the stream, and its schema stays. -/
theorem insertVerdict_eq_ok {m : Message} {t t' : Streams} (hstream : m.stream? = some stream)
    (h : insertVerdict m t = .ok t') :
    ∃ found, t.get? stream = some found ∧ found.schema.violations m.columns = [] ∧
      t'.schema? stream = some found.schema := by
  obtain ⟨other, hother, -, hdecided⟩ := verdictOn_eq_ok_iff.1 h
  cases hstream.symm.trans hother
  split at hdecided
  · have hsend := mapError_eq_ok_iff.1 hdecided
    obtain ⟨found, hfound, hfits, -⟩ := Streams.send_eq_ok_iff.1 hsend
    refine ⟨found, hfound, hfits, ?_⟩
    rw [Streams.schema?, Streams.get?_send hsend, if_pos rfl, hfound]
    rfl
  · contradiction

namespace Wiring

/-- The processor that creates and drops streams tells what it does. -/
theorem tells_definition (w : Wiring σ) (stream : String) (m : Message) (s : σ) :
    Tells stream ((w.streams s).schema? stream) (notices stream (w.definition.calls m s))
      ((w.streams (w.definition.handle m s).state).schema? stream) := by
  by_cases hstream : m.stream? = some stream
  · rcases hmatch : w.definition.match? m with _ | ⟨branch, route⟩
    · exact tells_of_unmatched hmatch w.streams s
    · obtain ⟨htakes, hroute⟩ := Builder.takes_of_match? hmatch
      cases branch with
      | start =>
        have hcreate : m.Names (some Operation.create) := htakes
        refine tells_of_ruling w.follows_definition hmatch (definitionPolicy_of_create hcreate)
          (execute_create w.get_set hroute m) (neverOk_createVerdict m _) fun t hverdict hdone => ?_
        -- a creation that succeeds found no stream and left one with the columns of the message
        obtain ⟨hmissing, declared, hdeclared, rfl⟩ := (createVerdict_eq_ok_iff hstream).1 hverdict
        obtain ⟨hdeclares, -⟩ := Message.declared?_eq_some_iff.1 hdeclared
        rw [notices_of_confirmed hmatch hstream (.inl hcreate) hdone (w.delivers _ _ _).1,
          Streams.schema?, Streams.schema?, hmissing,
          (Streams.get?_install _ _ stream).trans (if_pos rfl)]
        exact .created (decide_eq_true hcreate) (declares_of_declarations hdeclares)
      | stop =>
        have hdrop : m.Names (some Operation.drop) := htakes.1
        refine tells_of_ruling w.follows_definition hmatch (definitionPolicy_of_drop hdrop)
          (execute_drop w.get_set hroute m) (neverOk_dropVerdict m _) fun t hverdict hdone => ?_
        -- a drop that succeeds found a stream and left none
        obtain ⟨hdropped, found, hfound, -⟩ := (dropVerdict_eq_ok_iff hstream).1 hverdict
        rw [notices_of_confirmed hmatch hstream (.inr hdrop) hdone (w.delivers _ _ _).1,
          Streams.schema?, Streams.schema?, hfound, Streams.get?_drop hdropped, if_pos rfl]
        exact .dropped (decide_eq_false htakes.2)
  · rw [(w.follows_definition m s).2, notices_of_ne hstream,
      schema?_after_definition_of_ne hstream]
    exact .silent _

/-- The processor that sends events tells which were accepted. -/
theorem tells_insert (w : Wiring σ) (stream : String) (m : Message) (s : σ) :
    Tells stream ((w.streams s).schema? stream) (notices stream (w.insert.calls m s))
      ((w.streams (w.insert.handle m s).state).schema? stream) := by
  by_cases hstream : m.stream? = some stream
  · rcases hmatch : w.insert.match? m with _ | ⟨branch, route⟩
    · exact tells_of_unmatched hmatch w.streams s
    · obtain ⟨htakes, hroute⟩ := Builder.takes_of_match? hmatch
      cases branch with
      | start =>
        have hinsert : IsInsert m := htakes
        refine tells_of_ruling w.follows_insert hmatch (insertPolicy_of_insert hinsert)
          (execute_insert w.get_set hroute m) (neverOk_insertVerdict m _) fun t hverdict hdone => ?_
        -- an event that is accepted fits the schema, which stays
        obtain ⟨found, hfound, hfits, hkept⟩ := insertVerdict_eq_ok hstream hverdict
        rw [notices_of_accepted hmatch hstream hinsert hdone, hkept, Streams.schema?, hfound]
        exact .fed hfits
      | stop => cases hroute
  · rw [(w.follows_insert m s).2, notices_of_ne hstream, schema?_after_insert]
    exact .silent _

end Wiring

/-! ## What holds of all that was told -/

/-- What was told about a stream agrees with the schema that it has, if it exists. -/
structure Lifetime (stream : String) (existed : Bool) (told : List Notice)
    (found : Option Schema) : Prop where
  alternating : (existed :: (confirmed told).map creates).IsChain (· ≠ ·)
  existence : found.isSome = stands existed told
  declaration : ∀ creation ∈ lastCreation? told, ∀ schema ∈ found,
    ∃ declared, schema = .user stream declared ∧ creation.Declares declared
  events : ∀ before event after, told = before ++ .accepted event :: after →
    stands existed before = true ∧ ∀ creation ∈ lastCreation? before, creation.Admits event

/-- An event is the last notice or one of those before. -/
theorem accepted_concat_cases {told before after : List Notice} {n : Notice} {event : Message}
    (h : told ++ [n] = before ++ .accepted event :: after) :
    (told = before ∧ n = .accepted event) ∨ ∃ rest, told = before ++ .accepted event :: rest := by
  rcases List.eq_nil_or_concat' after with rfl | ⟨rest, last, rfl⟩
  · obtain ⟨hbefore, hlast⟩ := List.append_inj' h rfl
    exact .inl ⟨hbefore, List.singleton_inj.1 hlast⟩
  · rw [← List.cons_append, ← List.append_assoc] at h
    exact .inr ⟨rest, (List.append_inj' h rfl).1⟩

/-- An event that fits the columns of a creation is one that the creation admits. -/
theorem admits_of_fits {creation event : Message} {declared : List Declaration}
    (hdeclares : creation.Declares declared)
    (hfits : (Schema.user stream declared).violations event.columns = []) :
    creation.Admits event := by
  intro c hc
  obtain ⟨d, hfound, haccepts⟩ := Schema.violations_eq_nil_iff.1 hfits c hc
  rw [Schema.column?, Schema.user] at hfound
  -- the entry is found by its name among the declarations, which are the columns of the creation
  have hname : d.name = c.name := by simpa using List.find?_some hfound
  have hmem : (d.name, some d.type) ∈ declared.map fun d => (d.name, some d.type) :=
    List.mem_map.2 ⟨d, List.mem_of_find?_eq_some hfound, rfl⟩
  rw [← hdeclares] at hmem
  obtain ⟨column, hcolumn, heq⟩ := List.mem_map.1 hmem
  obtain ⟨hcolumnName, htype⟩ := Prod.mk.inj heq
  exact ⟨column, hcolumn, hcolumnName.trans hname, d.type, htype, haccepts⟩

namespace Lifetime

variable {existed : Bool} {told : List Notice} {found : Option Schema}

theorem start (stream : String) (t : Streams) :
    Lifetime stream (t.contains stream) [] (t.schema? stream) where
  alternating := .singleton _
  existence := Option.isSome_map
  declaration := nofun
  events := by
    intro before event after h
    exact absurd h.symm (List.append_ne_nil_of_right_ne_nil _ (List.cons_ne_nil _ _))

/-- A confirmation must say the opposite of what was said last. -/
theorem concat_confirmed (h : Lifetime stream existed told found) {m : Message}
    {found' : Option Schema} (hchanges : found.isSome ≠ found'.isSome)
    (hexists : found'.isSome = creates m)
    (hdeclares : ∀ schema ∈ found', ∃ declared,
      schema = .user stream declared ∧ m.Declares declared) :
    Lifetime stream existed (told ++ [.confirmed m]) found' where
  alternating := by
    have hlast : (existed :: (confirmed told).map creates).getLast? =
        some (stands existed told) := List.getLast?_cons
    -- only the link between what was said last and the new confirmation is to be checked
    rw [confirmed_concat_confirmed, List.map_append, ← List.cons_append, List.isChain_append]
    refine ⟨h.alternating, .singleton _, ?_⟩
    rintro _ hbefore _ hafter
    rw [hlast] at hbefore
    obtain rfl := Option.some.inj hbefore
    obtain rfl := Option.some.inj hafter
    rwa [← h.existence, ← hexists]
  existence := by rw [stands_concat_confirmed, hexists]
  declaration := by
    intro creation hcreation schema hschema
    have hcreates : creates m = true := hexists.symm.trans (Option.isSome_of_mem hschema)
    rw [lastCreation?_concat_confirmed, hcreates] at hcreation
    obtain rfl := Option.some.inj hcreation
    exact hdeclares schema hschema
  events := by
    intro before event after heq
    rcases accepted_concat_cases heq with ⟨-, hlast⟩ | ⟨rest, hrest⟩
    · contradiction
    · exact h.events before event rest hrest

/-- An event must come while the stream exists and must fit its schema. -/
theorem concat_accepted {schema : Schema} (h : Lifetime stream existed told (some schema))
    {m : Message} (hfits : schema.violations m.columns = []) :
    Lifetime stream existed (told ++ [.accepted m]) (some schema) where
  alternating := by
    rw [confirmed_concat_accepted]
    exact h.alternating
  existence := by
    rw [stands, confirmed_concat_accepted]
    exact h.existence
  declaration := by
    rw [lastCreation?, confirmed_concat_accepted]
    exact h.declaration
  events := by
    intro before event after heq
    -- the new event met the schema that the last creation declared
    rcases accepted_concat_cases heq with ⟨rfl, hlast⟩ | ⟨rest, hrest⟩
    · cases hlast
      refine ⟨h.existence.symm, fun creation hcreation => ?_⟩
      obtain ⟨declared, rfl, hdeclares⟩ := h.declaration creation hcreation schema rfl
      exact admits_of_fits hdeclares hfits
    · exact h.events before event rest hrest

end Lifetime

/-- What one message tells keeps what was told right. -/
theorem Tells.lifetime {existed : Bool} {told new : List Notice} {found found' : Option Schema}
    (h : Tells stream found new found') (hlifetime : Lifetime stream existed told found) :
    Lifetime stream existed (told ++ new) found' := by
  -- one case for each thing that a message can tell
  cases h with
  | silent found =>
    rw [List.append_nil]
    exact hlifetime
  | @created m declared hcreates hdeclares =>
    refine hlifetime.concat_confirmed nofun hcreates.symm ?_
    rintro _ ⟨⟩
    exact ⟨declared, rfl, hdeclares⟩
  | dropped hdrops => exact hlifetime.concat_confirmed nofun hdrops.symm nofun
  | fed hfits => exact hlifetime.concat_accepted hfits

/-! ## Main result -/

/-- **What clients are told about the life of a stream is true.**  Let batches be dispatched through
the standard registry, from any state and with sinks that deliver every reply, and look at a stream
after any of the messages, with the calls made until then.  The `OK` replies to `CREATE` and `DROP`
so far alternate, beginning with `CREATE` exactly if the stream did not exist at the start.  The
stream exists exactly if the last of them was to `CREATE`, or there was none and it existed at the
start.  If it exists and a `CREATE` was acknowledged, its columns are those of the last one, in order
and with their types.  And every event that was accepted came while the stream existed and, if a
`CREATE` was acknowledged before, names only columns of the last one, with values that their types
accept. -/
theorem Wiring.lifecycle_as_told (w : Wiring σ) (batches : List (List Message)) (s : σ)
    (stream : String) :
    let existed := (w.streams s).contains stream
    let trail := w.registry.traced.trail batches (.start s)
    trail.map (·.state) = w.registry.trail batches s ∧ ∀ t ∈ trail,
      let told := notices stream t.calls
      (existed :: (confirmed told).map creates).IsChain (· ≠ ·) ∧
      (w.streams t.state).contains stream = stands existed told ∧
      (∀ creation, lastCreation? told = some creation →
        ∀ schema, (w.streams t.state).schema? stream = some schema →
          ∃ declared, schema = .user stream declared ∧ creation.Declares declared) ∧
      ∀ before event after, told = before ++ .accepted event :: after →
        stands existed before = true ∧
          ∀ creation, lastCreation? before = some creation → creation.Admits event := by
  intro existed trail
  refine ⟨w.registry.state_trail_traced batches (.start s), ?_⟩
  -- what was told so far is right with each message, whichever processor it is given to
  have hkeeps : ∀ p ∈ w.registry.traced.processors, ∀ m, (p.handle m).Keeps fun t =>
      Lifetime stream existed (notices stream t.calls) ((w.streams t.state).schema? stream) := by
    intro traced htraced m t ht
    obtain ⟨p, hp, rfl⟩ := List.mem_map.1 htraced
    have htells : Tells stream ((w.streams t.state).schema? stream)
        (notices stream (p.calls m t.state))
        ((w.streams (p.handle m t.state).state).schema? stream) := by
      rcases List.mem_pair.1 hp with rfl | rfl
      · exact w.tells_definition stream m t.state
      · exact w.tells_insert stream m t.state
    rw [Processor.traced_handle_state, notices, List.filter_append, List.filterMap_append]
    exact htells.lifetime ht
  intro t ht
  have hstart : Lifetime stream existed (notices stream (Traced.start s).calls)
      ((w.streams s).schema? stream) := .start stream (w.streams s)
  have hlifetime := Registry.keeps_trail hkeeps batches hstart t ht
  refine ⟨hlifetime.alternating, ?_, hlifetime.declaration, hlifetime.events⟩
  rw [← hlifetime.existence]
  exact Option.isSome_map.symm

/-- A stream that is created, dropped and created again with another column.  A second creation, one
without a type, an event that does not fit and an event after the drop are refused on the way and are
not told of. -/
theorem Wiring.lifecycle_as_told_recreated :
    let w := Wiring.engine Config.default
    let s := Engine.new Config.default (.still 0)
    let creation := (Message.addressed "CREATE" "orders").carrying [.declaring "id" .long]
    let event := (Message.addressed "INSERT" "orders").carrying [.carrying "id" (.integer 7)]
    let drop := Message.addressed "drop" "orders"
    let untyped := (Message.addressed "CREATE" "orders").carrying [.carrying "total" .null]
    let again := (Message.addressed "create" "orders").carrying [.declaring "total" .double]
    let other := (Message.addressed "INSERT" "orders").carrying [.carrying "total" (.integer 8)]
    let batches := [[creation, event, creation], [drop, event], [untyped, again, event, other]]
    let t := w.registry.afterBatches batches (.start s)
    t ∈ w.registry.traced.trail batches (.start s) ∧
      notices "orders" t.calls = [.confirmed creation, .accepted event, .confirmed drop,
        .confirmed again, .accepted other] ∧
      [false, true, false, true].IsChain (· ≠ ·) ∧
      (w.streams t.state).contains "orders" = true ∧
      (∃ declared, (w.streams t.state).schema? "orders" = some (.user "orders" declared) ∧
        again.Declares declared) ∧
      creation.Admits event ∧ again.Admits other := by
  intro w s creation event drop untyped again other batches t
  -- the end of the run is a point of its trail
  have ht : t ∈ w.registry.traced.trail batches (.start s) :=
    List.mem_of_getLast? (w.registry.getLast?_trail_traced batches (.start s))
  have htold : notices "orders" t.calls = [.confirmed creation, .accepted event, .confirmed drop,
      .confirmed again, .accepted other] := by decide +kernel
  have hmissing : (w.streams s).contains "orders" = false := by decide +kernel
  have hschema : ((w.streams t.state).schema? "orders").isSome = true := by decide +kernel
  obtain ⟨schema, hfound⟩ := Option.isSome_iff_exists.1 hschema
  obtain ⟨halternating, hexists, hdeclared, hevents⟩ :=
    (w.lifecycle_as_told batches s "orders").2 t ht
  rw [htold] at halternating hexists hdeclared hevents
  rw [hmissing] at halternating hexists hevents
  obtain ⟨declared, rfl, hdeclares⟩ := hdeclared again (by decide) schema hfound
  refine ⟨ht, htold, halternating, hexists, ⟨declared, hfound, hdeclares⟩, ?_, ?_⟩
  · exact (hevents [.confirmed creation] event
      [.confirmed drop, .confirmed again, .accepted other] rfl).2 creation (by decide)
  · exact (hevents [.confirmed creation, .accepted event, .confirmed drop, .confirmed again] other
      [] rfl).2 again (by decide)

end Standard

end StreamControl
