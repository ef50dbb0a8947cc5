import StreamControl.Proofs.Dispatch.Sinks
import StreamControl.Proofs.Standard.Acknowledgments
import StreamControl.Proofs.Standard.Insertions

/-!
# Storing the replies to refused events, or not

A configuration says whether the replies to refused events are stored or only logged.  Since the sink
never influences processing, this is all that it decides: events are accepted and refused alike.  What
a processor leaves in the store is told exactly, by what one reply makes of the store and its clock
(`TimedStore.recorded`), reply after reply (`Processor.store_of_storing`).
-/

namespace StreamControl

variable {σ : Type}

/-! ## What replies leave in the store -/

/-- Recording replies touches no path but theirs. -/
theorem TimedStore.get?_recorded {root path : String} {sent : List (Message × Reply)}
    (h : ∀ one ∈ sent, path ≠ Acknowledgment.path root one.1) (t : TimedStore) :
    (sent.foldl (recorded root) t).store.get? path = t.store.get? path := by
  induction sent generalizing t with
  | nil => rfl
  | cons one sent ih =>
    obtain ⟨hone, hrest⟩ := List.forall_mem_cons.1 h
    rw [List.foldl_cons, ih hrest, recorded, Store.get?_put, if_neg (Ne.symm hone)]

/-- The store is what the replies among the calls so far made of an earlier one. -/
def Traced.Recorded (part : Part σ TimedStore) (root : String) (before : TimedStore)
    (t : Traced σ) : Prop :=
  part.get t.state = (t.calls.filterMap Call.reply?).foldl (TimedStore.recorded root) before

section Store

variable {part : Part σ TimedStore} {root : String} {before : TimedStore} {p : Processor σ}

namespace Traced.Recorded

/-- A call that is no reply and leaves the store as it is records nothing. -/
theorem of_leaves {s s' : σ} {calls : List (Call σ)} {c : Call σ}
    (h : Recorded part root before ⟨s, calls⟩) (hstore : part.get s' = part.get s)
    (hcall : c.reply? = none) : Recorded part root before ⟨s', calls ++ [c]⟩ := by
  unfold Recorded at h ⊢
  rw [hstore, List.filterMap_append, List.filterMap_cons_none hcall, List.filterMap_nil,
    List.append_nil]
  exact h

/-- A reply that is stored is recorded after those before it. -/
theorem of_storing (hpart : ∀ s t, part.get (part.set s t) = t) {s : σ} {calls : List (Call σ)}
    (h : Recorded part root before ⟨s, calls⟩) (processor : String) (m : Message) (reply : Reply)
    (gave : Except DeliveryError Unit) :
    Recorded part root before
      ⟨(Sink.storing (TimedStore.service part) root m reply s).state,
        calls ++ [.sink processor m reply gave]⟩ := by
  unfold Recorded at h ⊢
  rw [Sink.get_storing hpart, List.filterMap_append, List.foldl_append, ← h]
  rfl

/-- A processor that replies to the store and otherwise leaves it alone keeps this up. -/
theorem keeps_traced (hpart : ∀ s t, part.get (part.set s t) = t)
    (hsink : p.sink = .storing (TimedStore.service part) root)
    (hroutes : ∀ branch route, p.route? branch = some route → route.Leaves part.get) :
    p.traced.Keeps (Recorded part root before) := by
  refine Processor.keeps_traced ?_ ?_ ?_
  · intro branch route hroute v hv m s calls h
    exact h.of_leaves ((hroutes branch route hroute).checks v hv m s) rfl
  · intro branch route hroute m s calls h
    exact h.of_leaves ((hroutes branch route hroute).action m s) rfl
  · intro m reply s calls h
    rw [hsink]
    exact h.of_storing hpart p.name m reply _

end Traced.Recorded

namespace Processor

/-- A processor that replies to a store and otherwise leaves it alone records its replies there, one
after the other, and nothing else. -/
theorem store_of_storing (hpart : ∀ s t, part.get (part.set s t) = t)
    (hsink : p.sink = .storing (TimedStore.service part) root)
    (hroutes : ∀ branch route, p.route? branch = some route → route.Leaves part.get)
    (batch : List Message) (s : σ) :
    part.get (p.handleBatch batch s).state =
      ((p.batchCalls batch s).filterMap Call.reply?).foldl (TimedStore.recorded root)
        (part.get s) := by
  have hkeeps : p.traced.Keeps (Traced.Recorded part root (part.get s)) :=
    Traced.Recorded.keeps_traced hpart hsink hroutes
  have hrecorded := hkeeps.handleBatch batch (.start s) rfl
  unfold Traced.Recorded at hrecorded
  rw [(traced_handleBatch_eq _ _ _).2] at hrecorded
  rw [batchCalls_eq_turns]
  exact hrecorded

/-- A processor none of whose parts touches the store leaves it as it is. -/
theorem store_of_leaves (hsink : ∀ m reply, (p.sink m reply).Leaves part.get)
    (hroutes : ∀ branch route, p.route? branch = some route → route.Leaves part.get)
    (batch : List Message) (s : σ) : part.get (p.handleBatch batch s).state = part.get s :=
  (keeps_view hsink hroutes (part.get s)).handleBatch batch s rfl

end Processor

end Store

/-! ## Refused events -/

/-- The precondition that a rejected message violated. -/
def Outcome.refusal? : Outcome → Option Refusal
  | .rejected f => some f
  | _ => none

/-- The rejected messages of a batch, each with the reply that tells why. -/
def rejections (batch : List Message) (outcomes : List Outcome) : List (Message × Reply) :=
  (batch.zip outcomes).filterMap fun ended => ended.2.refusal?.map fun f => (ended.1, f.reply)

theorem rejections_cons (m : Message) (ms : List Message) (outcome : Outcome)
    (outcomes : List Outcome) :
    rejections (m :: ms) (outcome :: outcomes) =
      (outcome.refusal?.map fun f => (m, f.reply)).toList ++ rejections ms outcomes := by
  rw [rejections, List.zip_cons_cons, List.filterMap_cons]
  dsimp only
  rcases outcome.refusal? with _ | f
  · rfl
  · rfl

namespace Standard

/-- Of events, the refused ones are replied to, and only those. -/
theorem rejections_eq_replies (batch : List Message) (t : Streams) :
    rejections batch ((insertPolicy.answers batch t).map (·.1)) = insertPolicy.replies batch t := by
  induction batch generalizing t with
  | nil => rfl
  | cons m ms ih =>
    have hone : (insertPolicy.answer m t).1.refusal?.map (fun f => (m, f.reply)) =
        (insertPolicy.answer m t).2.map (m, ·) := by
      obtain ⟨outcome, reply?, t', hinserts⟩ := exists_inserts m t
      rw [hinserts.policy_eq.1]
      cases hinserts <;> rfl
    rw [Policy.replies, Policy.answers, List.map_cons, rejections_cons, hone, Option.toList_map, ih]

/-! ## The standard processors look at the streams alone -/

theorem Wiring.within_definition (w : Wiring σ) : w.definition.Within w.streams := by
  intro branch route hroute
  have hwithin : route.Within w.part.get := by
    cases branch with
    | start =>
      exact Route.within_of_decides (checks_create w.get_set hroute) (action_create w.get_set hroute)
    | stop =>
      exact Route.within_of_decides (checks_drop w.get_set hroute) (action_drop w.get_set hroute)
  exact hwithin

theorem Wiring.within_insert (w : Wiring σ) : w.insert.Within w.streams := by
  intro branch route hroute
  cases branch with
  | start =>
    have hwithin : route.Within w.part.get :=
      Route.within_of_decides (checks_insert w.get_set hroute) (action_insert w.get_set hroute)
    exact hwithin
  | stop => cases hroute

/-! ## Stored or logged -/

/-- An engine with the replies to refused events stored or logged. -/
def Wiring.replying (config : Config) (acknowledgeInserts : Bool) : Wiring Engine :=
  engine { config with acknowledgeInserts }

theorem leaves_coordination (config : Config) (acknowledgeInserts : Bool) :
    ∀ branch route, (Wiring.replying config acknowledgeInserts).insert.route? branch = some route →
      route.Leaves Engine.storePart.get :=
  leaves_of_serves (fun _ _ => rfl) (.insert _ _)

/-- If the replies to refused events are stored, the store holds them and is else as it was. -/
theorem store_of_replying (config : Config) (batch : List Message) (s : Engine) :
    ((Wiring.replying config true).insert.handleBatch batch s).state.coordination =
      (insertPolicy.replies batch s.streams).foldl (TimedStore.recorded config.coordinationRoot)
        s.coordination := by
  let w := Wiring.replying config true
  have hpart : ∀ s t, Engine.storePart.get (Engine.storePart.set s t) = t := fun _ _ => rfl
  have hstore := Processor.store_of_storing (p := w.insert) hpart rfl
    (leaves_coordination config true) batch s
  rw [w.follows_insert.replies_batchCalls batch s] at hstore
  exact hstore

/-- If they are logged, the store is untouched. -/
theorem store_of_not_replying (config : Config) (batch : List Message) (s : Engine) :
    ((Wiring.replying config false).insert.handleBatch batch s).state.coordination =
      s.coordination :=
  Processor.store_of_leaves (fun _ _ _ => rfl)
    (leaves_coordination config false) batch s

/-- **The sink never influences processing** (first part); so it makes no difference to the streams
whether an engine stores the replies to refused events.  If it does, they are recorded in the store,
in order and with the reason, and nothing else is; if not, the store is untouched (second part). -/
theorem sinks_inert :
    (∀ {σ τ : Type} (view : σ → τ) (p : Processor σ) (a b : Sink σ), p.Within view →
      a.Delivers view → b.Delivers view → ∀ batch s,
        Processor.RunsAlike view (p.withSink a) (p.withSink b) batch s) ∧
    ∀ (config : Config) (batch : List Message) (s : Engine),
      let streams := Streams.service Engine.streamsPart
      let store := TimedStore.service Engine.storePart
      let storing := insert streams { config with acknowledgeInserts := true } store
      let logging := insert streams { config with acknowledgeInserts := false } store
      Processor.RunsAlike Engine.streams storing logging batch s ∧
      (logging.handleBatch batch s).state.coordination = s.coordination ∧
      ∃ outcomes, (storing.handleAll batch s).result = .ok outcomes ∧
        let refused := rejections batch outcomes
        let after := (storing.handleBatch batch s).state.coordination
        (∀ sent ∈ refused, IsInsert sent.1) ∧
        after = refused.foldl (TimedStore.recorded config.coordinationRoot) s.coordination ∧
        ∀ path, (∀ sent ∈ refused, path ≠ Acknowledgment.path config.coordinationRoot sent.1) →
          after.store.get? path = s.coordination.store.get? path := by
  refine ⟨fun view p a b h ha hb => Processor.runsAlike_withSink h ha hb,
    fun config batch s => ?_⟩
  intro streams store storing logging
  let w := Wiring.replying config true
  let w' := Wiring.replying config false
  -- the rejections of the run are the replies of its policy, and those go to the store
  have hafter : (storing.handleBatch batch s).state.coordination =
      (rejections batch ((insertPolicy.answers batch s.streams).map (·.1))).foldl
        (TimedStore.recorded config.coordinationRoot) s.coordination := by
    rw [rejections_eq_replies]
    exact store_of_replying config batch s
  refine ⟨?_, store_of_not_replying config batch s, _, w.follows_insert.outcomes_eq batch s, ?_,
    hafter, ?_⟩
  · -- the two processors differ in their sinks alone
    exact Processor.runsAlike_withSink (p := storing) (a := storing.sink) (b := logging.sink)
      w.within_insert w.delivers_insert w'.delivers_insert batch s
  · intro sent hsent
    rw [rejections_eq_replies] at hsent
    obtain ⟨-, t, hreply⟩ := Policy.mem_replies hsent
    exact (isInsert_of_reply hreply).1
  · intro path hpath
    rw [hafter]
    exact TimedStore.get?_recorded hpath s.coordination

/-- A stream is created and another one is missing: stored or logged, the replies are the same. -/
theorem sinks_inert_definitions :
    let w := Wiring.engine Config.default
    let create := Message.addressed "CREATE" "orders"
    let drop := Message.addressed "DROP" "users"
    let s := Engine.new Config.default (.still 0)
    let logging := w.definition.withSink .logging
    w.definition.Within w.streams ∧ w.sink.Delivers w.streams ∧
      (Sink.logging : Sink Engine).Delivers w.streams ∧
      Processor.RunsAlike w.streams (w.definition.withSink w.sink) logging [create, drop] s ∧
      (logging.batchCalls [create, drop] s).filterMap Call.reply? =
        [(create, .ok), (drop, .because .streamDoesNotExist "stream users does not exist")] := by
  intro w create drop s logging
  have hlogging : (Sink.logging : Sink Engine).Delivers w.streams := fun _ _ _ => ⟨rfl, rfl⟩
  have hreplies : (logging.batchCalls [create, drop] s).filterMap Call.reply? =
      [(create, .ok), (drop, .because .streamDoesNotExist "stream users does not exist")] := by
    dsimp only [logging, w, create, drop, s]
    decide +kernel
  exact ⟨w.within_definition, w.delivers, hlogging,
    sinks_inert.1 w.streams w.definition w.sink .logging w.within_definition w.delivers hlogging
      [create, drop] s, hreplies⟩

end Standard

end StreamControl
