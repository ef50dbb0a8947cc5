import StreamControl.Proofs.Standard.Wiring
import StreamControl.Proofs.Store.Ledger

/-!
# What an engine stores

An engine replies to every message that creates or drops a stream and to every event that it refuses.
The first kind of reply is always stored, the second only if the configuration says so, and else it
is logged (`Standard.stored`).  Nothing else reaches the store: validators and actions work on the
streams (`leaves_of_serves`), so after a batch the store is a ledger of exactly these replies
(`ledger_dispatch`).
-/

namespace StreamControl

variable {σ τ : Type} {part : Part σ Streams} {view : σ → τ}

/-! ## Work on the streams leaves the rest alone -/

section Leaves

/-- A question to the streams is all that a validator asks. -/
theorem Validator.leaves_asking {name : String} {ask : String → Message → Step σ Bool}
    {wanted : Bool} {failure : String → Message → Failure} {m : Message}
    (hask : ∀ stream, (ask stream m).Leaves view) :
    ((asking name ask wanted failure).check m).Leaves view := by
  unfold asking
  dsimp only
  rcases addressee m with e | stream
  · exact Step.leaves_pure _
  · refine Step.leaves_bind (hask stream) fun answered => ?_
    split
    · exact Step.leaves_pure _
    · exact Step.leaves_pure _

theorem Standard.leaves_streamAction
    {act : (stream : String) → Message → Step σ (Except StreamError Unit)}
    {event : (stream : String) → Message → Event} {acknowledge : Bool} {m : Message}
    (hact : ∀ stream, (act stream m).Leaves view) :
    (streamAction act event acknowledge m).Leaves view := by
  unfold streamAction
  rcases Validator.addressee m with e | stream
  · exact Step.leaves_pure _
  · refine Step.leaves_bind (hact stream) ?_
    rintro (e | ⟨⟩)
    · exact Step.leaves_pure _
    · exact Step.leaves_bind (Step.leaves_emit _) fun _ => Step.leaves_pure _

theorem mem_of_mem_firstOfEachName {v : Validator σ} {vs : List (Validator σ)}
    (h : v ∈ firstOfEachName vs) : v ∈ vs := by
  induction vs with
  | nil => exact h
  | cons w vs ih =>
    rcases List.mem_cons.1 h with rfl | h
    · exact List.mem_cons_self
    · exact List.mem_cons_of_mem _ (ih (List.mem_of_mem_filter h))

/-- A route is made of the validators and the action that its builder was given. -/
theorem Builder.leaves_route {b : Builder σ} {branch : Branch} {route : Route σ}
    (hroute : b.processor.route? branch = some route)
    (hchecks : ∀ v ∈ b.standing ++ b.extras branch, ∀ m, (v.check m).Leaves view)
    (haction : ∀ command action, b.bound? branch = some (command, action) →
      ∀ m, (action m).Leaves view) : route.Leaves view := by
  rw [route?_processor] at hroute
  obtain ⟨⟨command, action⟩, hbound, rfl⟩ := Option.map_eq_some_iff.1 hroute
  refine ⟨fun v hv => hchecks v (mem_of_mem_firstOfEachName ?_), haction command action hbound⟩
  rw [← Chain.validators_ofList]
  exact hv

/-- The routes of the standard processors change the streams and nothing else. -/
theorem Standard.leaves_of_serves (hothers : ∀ s t, view (part.set s t) = view s) {p : Processor σ}
    (hserves : Serves part p) :
    ∀ branch route, p.route? branch = some route → route.Leaves view := by
  intro branch route hroute
  have hon : ∀ {α : Type} (x : Step Streams α), (Step.on part x).Leaves view := fun _ s =>
    hothers s _
  -- all validators but the first ask the streams and change nothing
  have hasks : ∀ (name : String) (answer : String → Message → Streams → Bool) (wanted : Bool)
      (failure : String → Message → Failure) (m : Message),
      ((Validator.asking name (fun stream m => .on part (.view (answer stream m)))
        wanted failure).check m).Leaves view := fun _ _ _ _ _ =>
    Validator.leaves_asking fun _ => hon _
  have hstanding : ∀ v ∈ [.namesStream, .admitted (Streams.service part)],
      ∀ m, ((v : Validator σ).check m).Leaves view :=
    List.forall_mem_cons.2 ⟨fun _ => Step.leaves_pure _,
      List.forall_mem_singleton.2 (hasks _ _ _ _)⟩
  -- one case per processor and branch: the validators that it adds, and its action
  cases hserves with
  | definition sink =>
    cases branch with
    | start =>
      refine Builder.leaves_route hroute (List.forall_mem_append.2 ⟨hstanding,
        List.forall_mem_singleton.2 (hasks _ _ _ _)⟩) ?_
      rintro _ _ ⟨⟩ m
      exact leaves_streamAction fun _ => hon _
    | stop =>
      refine Builder.leaves_route hroute (List.forall_mem_append.2 ⟨hstanding,
        List.forall_mem_cons.2 ⟨hasks _ _ _ _, List.forall_mem_singleton.2 (hasks _ _ _ _)⟩⟩) ?_
      rintro _ _ ⟨⟩ m
      exact leaves_streamAction fun _ => hon _
  | insert config store =>
    cases branch with
    | start =>
      refine Builder.leaves_route hroute (List.forall_mem_append.2 ⟨hstanding,
        List.forall_mem_singleton.2 (hasks _ _ _ _)⟩) ?_
      rintro _ _ ⟨⟩ m
      exact leaves_streamAction fun _ => hon _
    | stop => cases hroute

end Leaves

/-! ## The replies of an engine -/

namespace Standard

/-- The replies to a batch that an engine stores, in the order in which it gives them: all those to
messages that create and drop streams, and those to refused events if the configuration says so. -/
def stored (config : Config) (batch : List Message) (t : Streams) : List (Message × Reply) :=
  definitionPolicy.replies batch t ++
    if config.acknowledgeInserts then insertPolicy.replies batch (definitionPolicy.afterAll batch t)
    else []

theorem exists_reply_definition {m : Message} (h : IsDefinition m) (t : Streams) :
    ∃ reply, (definitionPolicy.answer m t).2 = some reply := by
  have hruling : ∃ verdict, definitionPolicy m = some ⟨true, verdict⟩ := by
    rcases h with hcreate | hdrop
    · exact ⟨_, definitionPolicy_of_create hcreate⟩
    · exact ⟨_, definitionPolicy_of_drop hdrop⟩
  obtain ⟨verdict, hruling⟩ := hruling
  rw [Policy.answer, hruling]
  dsimp only [Ruling.given]
  -- acknowledged or failed, there is something to answer
  rcases verdict t with e | t'
  · exact ⟨e.reply, rfl⟩
  · exact ⟨.ok, rfl⟩

theorem isDefinition_of_mem_replies {batch : List Message} {t : Streams} {sent : Message × Reply}
    (h : sent ∈ definitionPolicy.replies batch t) : IsDefinition sent.1 := by
  by_contra hother
  obtain ⟨-, t', hreply⟩ := Policy.mem_replies h
  rw [Policy.answer_of_none (definitionPolicy_eq_none hother)] at hreply
  contradiction

/-- An event is only replied to if it fails. -/
theorem isInsert_of_reply {m : Message} {t : Streams} {reply : Reply}
    (h : (insertPolicy.answer m t).2 = some reply) : IsInsert m ∧ ∃ e : Failure, reply = e.reply := by
  by_cases hinsert : IsInsert m
  · rw [Policy.answer, insertPolicy_of_insert hinsert] at h
    dsimp only [Ruling.given] at h
    -- an event that is accepted is not acknowledged
    rcases hverdict : insertVerdict m t with e | t'
    · rw [hverdict] at h
      exact ⟨hinsert, e, (Option.some.inj h).symm⟩
    · rw [hverdict] at h
      contradiction
  · rw [Policy.answer_of_none (insertPolicy_eq_none hinsert)] at h
    contradiction

/-- Every message that creates or drops a stream is replied to once. -/
theorem messages_replies_definition (batch : List Message) (t : Streams) :
    (definitionPolicy.replies batch t).map (·.1) = batch.filter fun m => IsDefinition m := by
  induction batch generalizing t with
  | nil => rfl
  | cons m ms ih =>
    rw [Policy.replies, List.map_append, ih, List.filter_cons]
    by_cases hdefinition : IsDefinition m
    · obtain ⟨reply, hreply⟩ := exists_reply_definition hdefinition t
      simp [hreply, hdefinition]
    · simp [Policy.answer, definitionPolicy_eq_none hdefinition, hdefinition]

/-- The reply to a message that creates or drops a stream is always stored. -/
theorem exists_mem_stored {config : Config} {batch : List Message} {t : Streams} {m : Message}
    (hm : m ∈ batch) (hdefinition : IsDefinition m) :
    ∃ reply, (m, reply) ∈ stored config batch t := by
  have hmem : m ∈ (definitionPolicy.replies batch t).map (·.1) := by
    rw [messages_replies_definition]
    exact List.mem_filter.2 ⟨hm, decide_eq_true hdefinition⟩
  obtain ⟨⟨_, reply⟩, hsent, rfl⟩ := List.mem_map.1 hmem
  exact ⟨reply, List.mem_append_left _ hsent⟩

/-- What is stored answers a message that creates or drops a stream, or refuses an event. -/
theorem mem_stored {config : Config} {batch : List Message} {t : Streams}
    {sent : Message × Reply} (h : sent ∈ stored config batch t) :
    sent.1 ∈ batch ∧ (IsDefinition sent.1 ∨
      config.acknowledgeInserts = true ∧ IsInsert sent.1 ∧ ∃ e : Failure, sent.2 = e.reply) := by
  rcases List.mem_append.1 h with h | h
  · obtain ⟨hmem, -⟩ := Policy.mem_replies h
    exact ⟨hmem, .inl (isDefinition_of_mem_replies h)⟩
  · split at h
    · rename_i hstores
      obtain ⟨hmem, t', hreply⟩ := Policy.mem_replies h
      obtain ⟨hinsert, e, he⟩ := isInsert_of_reply hreply
      exact ⟨hmem, .inr ⟨hstores, hinsert, e, he⟩⟩
    · exact absurd h List.not_mem_nil

namespace Wiring

/-- A dispatch is the pass of one processor and then that of the other. -/
theorem traced_dispatch_eq (w : Wiring σ) (batch : List Message) (s : σ) :
    (⟨(w.registry.dispatch batch s).state, w.registry.calls batch s⟩ : Traced σ) =
      w.insert.after batch (w.definition.after batch (.start s)) := by
  have hfrontier := w.registry.dispatch_frontier batch s
  rw [(w.dispatch_eq batch s).1] at hfrontier
  exact hfrontier.1

/-- The replies of a batch: first those to definitions, then those to events. -/
theorem replies_dispatch (w : Wiring σ) (batch : List Message) (s : σ) :
    (w.registry.calls batch s).filterMap Call.reply? =
      definitionPolicy.replies batch (w.streams s) ++
        insertPolicy.replies batch (definitionPolicy.afterAll batch (w.streams s)) := by
  obtain ⟨hdefined, hstreams⟩ := w.follows_definition.replies_after batch (.start s)
  obtain ⟨hinserted, -⟩ := w.follows_insert.replies_after batch (w.definition.after batch (.start s))
  rw [← w.traced_dispatch_eq, hdefined, hstreams] at hinserted
  exact hinserted

/-- Of the replies of a batch, the sinks that write to the store are handed those to be stored. -/
theorem filter_replies_dispatch (w : Wiring σ) (batch : List Message) (s : σ) :
    ((w.registry.calls batch s).filterMap Call.reply?).filter
        (fun sent => IsDefinition sent.1 ∨ w.config.acknowledgeInserts = true) =
      stored w.config batch (w.streams s) := by
  have hdefinitions : (definitionPolicy.replies batch (w.streams s)).filter
      (fun sent => IsDefinition sent.1 ∨ w.config.acknowledgeInserts = true) =
        definitionPolicy.replies batch (w.streams s) :=
    List.filter_eq_self.2 fun _ hsent => decide_eq_true (.inl (isDefinition_of_mem_replies hsent))
  rw [replies_dispatch, List.filter_append, hdefinitions, stored]
  congr 1
  -- the replies to events are stored all or not at all
  by_cases hstores : w.config.acknowledgeInserts = true
  · rw [if_pos hstores]
    exact List.filter_eq_self.2 fun _ _ => decide_eq_true (.inr hstores)
  · rw [if_neg hstores]
    refine List.filter_eq_nil_iff.2 fun sent hsent hkept => ?_
    obtain ⟨-, t', hreply⟩ := Policy.mem_replies hsent
    rcases of_decide_eq_true hkept with hdefinition | hstored
    · exact hdefinition.not_isInsert (isInsert_of_reply hreply).1
    · exact hstores hstored

end Wiring

/-- After a batch, the store of a new engine holds the replies that are to be stored, and no others. -/
theorem ledger_dispatch (config : Config) (batch : List Message) {s : Engine}
    (hempty : s.coordination.store = .empty) :
    ∃ calls : List (Call Engine), calls.filterMap Call.reply? = stored config batch s.streams ∧
      Ledger Engine.storePart config.coordinationRoot
        ⟨((registry config).dispatch batch s).state, calls⟩ := by
  let w := Wiring.engine config
  have hpart : ∀ s t, Engine.storePart.get (Engine.storePart.set s t) = t := fun _ _ => rfl
  have hroutes : ∀ {p}, Serves Engine.streamsPart p → ∀ branch route,
      p.route? branch = some route → route.Leaves fun s => (Engine.storePart.get s).store :=
    fun hserves => leaves_of_serves (fun _ _ => rfl) hserves
  have hinsert : Serves Engine.streamsPart w.insert := .insert _ _
  -- the first processor always writes, so the ledger of an empty store is kept through its pass
  have hdefined : Ledger Engine.storePart config.coordinationRoot
      (w.definition.after batch (.start s)) := by
    refine Processor.keeps_after (Processor.Keeps.handle ?_) batch (.start hempty)
    exact Ledger.keeps_traced hpart rfl (hroutes (.definition _))
  have hreplies := w.replies_dispatch batch s
  have hended := w.traced_dispatch_eq batch s
  by_cases hstores : config.acknowledgeInserts = true
  · -- both processors write to the store
    refine ⟨w.registry.calls batch s, ?_, ?_⟩
    · rw [hreplies, stored, if_pos hstores]
      rfl
    · have hsink : w.insert.sink = .storing (TimedStore.service Engine.storePart)
          config.coordinationRoot := if_pos hstores
      have hledger := Processor.keeps_after
        (Ledger.keeps_traced hpart hsink (hroutes hinsert)).handle batch hdefined
      rw [← hended] at hledger
      exact hledger
  · -- the second processor only logs, so the store stays as the first one left it
    have hsink : w.insert.sink = .logging := if_neg hstores
    have hkeeps : w.insert.Keeps fun u => (Engine.storePart.get u).store =
        (Engine.storePart.get (w.definition.after batch (.start s)).state).store :=
      Processor.keeps_view (by rw [hsink]; exact fun _ _ _ => rfl) (hroutes hinsert) _
    have hsteps : ∀ m, (w.insert.traced.handle m).Keeps fun t =>
        (Engine.storePart.get t.state).store =
          (Engine.storePart.get (w.definition.after batch (.start s)).state).store := by
      intro m t hstore
      rw [Processor.traced_handle_state]
      exact hkeeps.handle m t.state hstore
    have hkept := Processor.keeps_after hsteps batch rfl
    rw [← hended] at hkept
    refine ⟨(w.definition.after batch (.start s)).calls, ?_, hdefined.delivered, fun path => ?_⟩
    · rw [(w.follows_definition.replies_after batch (.start s)).1, stored, if_neg hstores,
        List.append_nil]
      rfl
    · have hnode := hdefined.nodes path
      rw [← hkept] at hnode
      exact hnode

end Standard

end StreamControl
