import StreamControl.Dispatch.Sink
import StreamControl.Proofs.Dispatch.Frontier
import StreamControl.Proofs.Dispatch.Invariants
import StreamControl.Proofs.Store.Paths
import StreamControl.Proofs.Wire.ReadBack

/-!
# The store as a ledger of replies

Processors that write their replies to one store leave in it exactly what they replied: for each
session and request a node that holds the last reply and counts all of them.  The invariant
`Ledger` compares the store with the calls made so far, path by path; one write keeps it, and
nothing else touches the store.
-/

namespace StreamControl

variable {σ : Type}

/-! ## One path -/

/-- The node at a path fits the replies that went there, from the first to the last: without a reply
there is none, else it holds the record of the last one and its version counts all of them. -/
def Node.Records (replies : List (Message × Reply)) (node? : Option Node) : Prop :=
  match replies.getLast? with
  | none => node? = none
  | some (m, reply) => ∃ node now, node? = some node ∧
      node.data = (Acknowledgment.new m reply now).json ∧
      node.metadata.version.toNat = min replies.length 0xFFFFFFFF

/-- A write for one more reply makes the node that fits all of them. -/
theorem Node.records_written {replies : List (Message × Reply)} {node? : Option Node}
    (h : Records replies node?) (m : Message) (reply : Reply) (now time : Int64) :
    Records (replies ++ [(m, reply)])
      (some (Store.written node? (Acknowledgment.new m reply now).json time)) := by
  unfold Records at h ⊢
  rw [List.getLast?_concat, List.length_append, List.length_singleton]
  -- the first reply makes a node of version 1, any other counts the version up
  rcases hlast : replies.getLast? with _ | ⟨m', reply'⟩
  · rw [hlast] at h
    rw [List.getLast?_eq_none_iff.1 hlast, h]
    exact ⟨_, now, rfl, rfl, rfl⟩
  · rw [hlast] at h
    obtain ⟨node, _, rfl, _, hversion⟩ := h
    refine ⟨_, now, rfl, rfl, ?_⟩
    change (node.metadata.update time).version.toNat = _
    rw [Metadata.toNat_version_update, hversion]
    omega

/-! ## One write -/

/-- The store after one more reply was recorded.  The clock is read twice, for the record and for the
node that holds it. -/
def TimedStore.recorded (root : String) (t : TimedStore) (sent : Message × Reply) : TimedStore :=
  let reading := t.clock.readings t.clock.taken
  let record := Acknowledgment.new sent.1 sent.2 reading
  { store := (t.store.put (Acknowledgment.path root sent.1) record.json
      (t.clock.readings (t.clock.taken + 1))).2
    clock := { t.clock with taken := t.clock.taken + 2 } }

/-- Storing a reply records it in the store that is a part of the state. -/
theorem Sink.get_storing {part : Part σ TimedStore} {root : String}
    (hpart : ∀ s t, part.get (part.set s t) = t) (m : Message) (reply : Reply) (s : σ) :
    part.get (storing (TimedStore.service part) root m reply s).state =
      TimedStore.recorded root (part.get s) (m, reply) := by
  -- the sink reads the clock for the record before the store reads it for the node
  let dated := TimedStore.now (part.get s)
  have hdated : part.get (part.set s dated.state) = dated.state := hpart _ _
  have hwritten : part.get (storing (TimedStore.service part) root m reply s).state =
      (TimedStore.put (Acknowledgment.path root m) (Acknowledgment.new m reply dated.result).json
        (part.get (part.set s dated.state))).state := hpart _ _
  rw [hwritten, hdated]
  rfl

/-! ## All paths -/

/-- The replies among some calls that went to a path below a root. -/
def repliesAt (root path : String) (calls : List (Call σ)) : List (Message × Reply) :=
  (calls.filterMap Call.reply?).filter fun sent => Acknowledgment.path root sent.1 == path

/-- All replies were delivered, and the node at each path fits the replies that went there. -/
structure Ledger (part : Part σ TimedStore) (root : String) (t : Traced σ) : Prop where
  delivered : t.Delivered
  nodes : ∀ path, Node.Records (repliesAt root path t.calls) ((part.get t.state).store.get? path)

theorem repliesAt_concat (root path : String) (calls : List (Call σ)) (processor : String)
    (m : Message) (reply : Reply) (gave : Except DeliveryError Unit) :
    repliesAt root path (calls ++ [.sink processor m reply gave]) =
      if Acknowledgment.path root m = path then repliesAt root path calls ++ [(m, reply)]
      else repliesAt root path calls := by
  unfold repliesAt
  rw [List.filterMap_append, List.filter_append]
  by_cases hpath : Acknowledgment.path root m = path
  · simp [Call.reply?, hpath]
  · simp [Call.reply?, hpath]

namespace Ledger

variable {part : Part σ TimedStore} {root : String}

/-- Nothing was sent, and nothing is stored. -/
theorem start {s : σ} (hempty : (part.get s).store = .empty) : Ledger part root (.start s) := by
  refine ⟨fun c hc => absurd hc List.not_mem_nil, fun path => ?_⟩
  change (part.get s).store.get? path = none
  rw [hempty, Store.get?_empty]

/-- A call that is no reply and leaves the store as it is keeps the ledger. -/
theorem of_leaves {s s' : σ} {calls : List (Call σ)} {c : Call σ} (h : Ledger part root ⟨s, calls⟩)
    (hstore : (part.get s').store = (part.get s).store) (hcall : c.reply? = none) :
    Ledger part root ⟨s', calls ++ [c]⟩ := by
  refine ⟨?_, fun path => ?_⟩
  · exact List.forall_mem_append.2
      ⟨h.delivered, List.forall_mem_singleton.2 (Call.isUndelivered_of_reply? hcall)⟩
  · -- the call is none of the sink, so no path has more replies than before
    have hreplies : repliesAt root path (calls ++ [c]) = repliesAt root path calls := by
      rw [repliesAt, List.filterMap_append, List.filterMap_cons_none hcall, List.filterMap_nil,
        List.append_nil]
      rfl
    dsimp only
    rw [hreplies, hstore]
    exact h.nodes path

/-- Writing a reply never fails, and puts its record at the path of the message. -/
theorem storing_apply (hpart : ∀ s t, part.get (part.set s t) = t) (root : String) (m : Message)
    (reply : Reply) (s : σ) :
    let ran := Sink.storing (TimedStore.service part) root m reply s
    ran.result = .ok () ∧ ∃ now time, (part.get ran.state).store =
      ((part.get s).store.put (Acknowledgment.path root m)
        (Acknowledgment.new m reply now).json time).2 := by
  intro ran
  exact ⟨rfl, _, _, congrArg TimedStore.store (Sink.get_storing hpart m reply s)⟩

/-- A reply that is written keeps the ledger. -/
theorem of_storing (hpart : ∀ s t, part.get (part.set s t) = t) {s : σ} {calls : List (Call σ)}
    (h : Ledger part root ⟨s, calls⟩) (processor : String) (m : Message) (reply : Reply) :
    let ran := Sink.storing (TimedStore.service part) root m reply s
    Ledger part root ⟨ran.state, calls ++ [.sink processor m reply ran.result]⟩ := by
  intro ran
  obtain ⟨hresult, now, time, hstore⟩ := storing_apply hpart root m reply s
  refine ⟨?_, fun path => ?_⟩
  · refine List.forall_mem_append.2 ⟨h.delivered, List.forall_mem_singleton.2 ?_⟩
    rw [hresult]
    rfl
  · dsimp only
    rw [repliesAt_concat, hstore, Store.get?_put]
    -- the reply is one more at its own path, and none anywhere else
    by_cases hpath : Acknowledgment.path root m = path
    · rw [if_pos hpath, if_pos hpath, hpath]
      exact Node.records_written (h.nodes path) m reply now time
    · rw [if_neg hpath, if_neg hpath]
      exact h.nodes path

/-- A processor that replies to the store and otherwise leaves it alone keeps the ledger. -/
theorem keeps_traced (hpart : ∀ s t, part.get (part.set s t) = t) {p : Processor σ}
    (hsink : p.sink = .storing (TimedStore.service part) root)
    (hroutes : ∀ branch route, p.route? branch = some route →
      route.Leaves fun s => (part.get s).store) :
    p.traced.Keeps (Ledger part root) := by
  refine Processor.keeps_traced ?_ ?_ ?_
  · intro branch route hroute v hv m s calls h
    exact h.of_leaves ((hroutes branch route hroute).checks v hv m s) rfl
  · intro branch route hroute m s calls h
    exact h.of_leaves ((hroutes branch route hroute).action m s) rfl
  · intro m reply s calls h
    rw [hsink]
    exact h.of_storing hpart p.name m reply

/-- A node is stored exactly where a reply went. -/
theorem contains_iff {t : Traced σ} (h : Ledger part root t) (path : String) :
    (part.get t.state).store.contains path = true ↔
      ∃ sent ∈ t.calls.filterMap Call.reply?, path = Acknowledgment.path root sent.1 := by
  have hnode := h.nodes path
  unfold Node.Records at hnode
  rw [Store.contains]
  -- a path has a last reply exactly if it has any
  rcases hlast : (repliesAt root path t.calls).getLast? with _ | sent
  · rw [hlast] at hnode
    rw [hnode]
    have hnone := List.getLast?_eq_none_iff.1 hlast
    constructor
    · intro hsome
      contradiction
    · rintro ⟨sent, hsent, rfl⟩
      have hmem : sent ∈ repliesAt root (Acknowledgment.path root sent.1) t.calls :=
        List.mem_filter.2 ⟨hsent, beq_self_eq_true _⟩
      rw [hnone] at hmem
      exact absurd hmem List.not_mem_nil
  · rw [hlast] at hnode
    obtain ⟨node, _, hsome, _⟩ := hnode
    rw [hsome]
    obtain ⟨hsent, hpath⟩ := List.mem_filter.1 (List.mem_of_getLast? hlast)
    exact ⟨fun _ => ⟨sent, hsent, (beq_iff_eq.1 hpath).symm⟩, fun _ => rfl⟩

/-- The replies at the path of two ids are those to messages with these ids. -/
theorem repliesAt_ids (sessionId requestId : String) (calls : List (Call σ)) :
    repliesAt root (Path.join root [sessionId, requestId]) calls =
      (calls.filterMap Call.reply?).filter fun sent =>
        sent.1.sessionId = sessionId ∧ sent.1.requestId = requestId := by
  refine List.filter_congr fun sent _ => ?_
  rw [Bool.eq_iff_iff, beq_iff_eq, decide_eq_true_eq]
  constructor
  · intro hpath
    have hlevels := Path.join_inj hpath
    simpa using hlevels
  · rintro ⟨rfl, rfl⟩
    rfl

end Ledger

/-- **No reply is lost, misfiled or overwritten by another request.**  Let all processors reply to
one store below one root, and let their validators and actions leave the store alone.  However many
batches are dispatched from an empty store, all replies are delivered; a node is stored exactly for
the ids of each message that was replied to; and the node of two ids holds the record of the last
reply to them, with a version that counts these replies as far as it can. -/
theorem Registry.ledger_of_replies {r : Registry σ} {part : Part σ TimedStore} {root : String}
    (hpart : ∀ s t, part.get (part.set s t) = t)
    (hsinks : ∀ p ∈ r.processors, p.sink = .storing (TimedStore.service part) root)
    (hroutes : ∀ p ∈ r.processors, ∀ branch route, p.route? branch = some route →
      route.Leaves fun s => (part.get s).store)
    (batches : List (List Message)) {s : σ} (hempty : (part.get s).store = .empty) :
    let after := r.afterBatches batches (.start s)
    let store := (part.get after.state).store
    let replies := after.calls.filterMap Call.reply?
    after.Delivered ∧
      (∀ path, store.contains path = true ↔
        ∃ sent ∈ replies, path = Path.join root [sent.1.sessionId, sent.1.requestId]) ∧
      ∀ sessionId requestId,
        let own := replies.filter fun sent =>
          sent.1.sessionId = sessionId ∧ sent.1.requestId = requestId
        let node? := store.get? (Path.join root [sessionId, requestId])
        match own.getLast? with
        | none => node? = none
        | some (m, reply) => ∃ node timestamp, node? = some node ∧
            node.metadata.version.toNat = min own.length 0xFFFFFFFF ∧
            Acknowledgment.decode node.data = .ok
              { sessionId, requestId, operation := m.operation, streamName := m.streamName,
                code := reply.code, detail := reply.detail, timestamp } := by
  intro after store replies
  have hledger : Ledger part root after := by
    refine keeps_afterBatches ?_ batches (.start hempty)
    intro p hp
    exact Ledger.keeps_traced hpart (hsinks p hp) (hroutes p hp)
  refine ⟨hledger.delivered, hledger.contains_iff, ?_⟩
  intro sessionId requestId own node?
  -- escaped ids are told apart by their path, so the replies there are those to the two ids
  have hnode : Node.Records own node? := by
    have hthere := hledger.nodes (Path.join root [sessionId, requestId])
    rw [Ledger.repliesAt_ids] at hthere
    exact hthere
  unfold Node.Records at hnode
  rcases hlast : own.getLast? with _ | ⟨m, reply⟩
  · rw [hlast] at hnode
    exact hnode
  · rw [hlast] at hnode
    obtain ⟨node, now, hsome, hdata, hversion⟩ := hnode
    obtain ⟨-, hids⟩ := List.mem_filter.1 (List.mem_of_getLast? hlast)
    obtain ⟨rfl, rfl⟩ := of_decide_eq_true hids
    refine ⟨node, now, hsome, hversion, ?_⟩
    rw [hdata]
    exact Acknowledgment.decode_json_self _

/-- Ids that hold slashes: two pairs that read the same when joined plainly keep their own nodes. -/
theorem Registry.ledger_of_replies_slashes :
    let part : Part TimedStore TimedStore := ⟨id, fun _ t => t⟩
    let sink := Sink.storing (TimedStore.service part) "/acks/"
    let go : Route TimedStore := ⟨"go", .empty, fun _ => pure (.ok true)⟩
    let r : Registry TimedStore :=
      ⟨[⟨"first", some go, none, sink⟩, ⟨"second", some go, none, sink⟩], by decide⟩
    let m := (Message.addressed "go" "s").identified "a/b" "c"
    let other := (Message.addressed "GO" "t").identified "a" "b/c"
    let s : TimedStore := ⟨.empty, .still 0⟩
    let after := r.afterBatches [[m, other], [m]] (.start s)
    (∀ s t, part.get (part.set s t) = t) ∧
      (∀ p ∈ r.processors, p.sink = .storing (TimedStore.service part) "/acks/") ∧
      (∀ p ∈ r.processors, ∀ branch route, p.route? branch = some route →
        route.Leaves fun s => (part.get s).store) ∧
      (part.get s).store = .empty ∧
      after.Delivered ∧
      (∃ node timestamp, after.state.store.get? (Path.join "/acks/" ["a/b", "c"]) = some node ∧
        node.metadata.version.toNat = 4 ∧
        Acknowledgment.decode node.data =
          .ok ⟨"a/b", "c", some "go", some "s", .ok, none, timestamp⟩) ∧
      ∃ node timestamp, after.state.store.get? (Path.join "/acks/" ["a", "b/c"]) = some node ∧
        node.metadata.version.toNat = 2 ∧
        Acknowledgment.decode node.data =
          .ok ⟨"a", "b/c", some "GO", some "t", .ok, none, timestamp⟩ := by
  intro part sink go r m other s after
  have hpart : ∀ s t, part.get (part.set s t) = t := fun _ _ => rfl
  have hsinks : ∀ p ∈ r.processors, p.sink = .storing (TimedStore.service part) "/acks/" := by
    intro p hp
    simp only [r, List.mem_cons, List.not_mem_nil, or_false] at hp
    rcases hp with rfl | rfl <;> rfl
  have hgo : go.Leaves fun s => (part.get s).store :=
    ⟨fun v hv => absurd hv List.not_mem_nil, fun _ _ => rfl⟩
  have hroutes : ∀ p ∈ r.processors, ∀ branch route, p.route? branch = some route →
      route.Leaves fun s => (part.get s).store := by
    intro p hp branch route hroute
    simp only [r, List.mem_cons, List.not_mem_nil, or_false] at hp
    rcases hp with rfl | rfl <;> cases branch <;> cases hroute <;> exact hgo
  have hledger := ledger_of_replies hpart hsinks hroutes [[m, other], [m]] (s := s) rfl
  -- both processors answer each of the three messages
  have hreplies : after.calls.filterMap Call.reply? =
      [(m, .ok), (other, .ok), (m, .ok), (other, .ok), (m, .ok), (m, .ok)] := by decide
  have hown : (after.calls.filterMap Call.reply?).filter (fun sent =>
      sent.1.sessionId = "a/b" ∧ sent.1.requestId = "c") =
        [(m, .ok), (m, .ok), (m, .ok), (m, .ok)] := by
    rw [hreplies]
    decide
  have hothers : (after.calls.filterMap Call.reply?).filter (fun sent =>
      sent.1.sessionId = "a" ∧ sent.1.requestId = "b/c") = [(other, .ok), (other, .ok)] := by
    rw [hreplies]
    decide
  have hnode := hledger.2.2 "a/b" "c"
  have hnode' := hledger.2.2 "a" "b/c"
  dsimp only at hnode hnode'
  rw [hown] at hnode
  rw [hothers] at hnode'
  exact ⟨hpart, hsinks, hroutes, rfl, hledger.1, hnode, hnode'⟩

end StreamControl
