import StreamControl.Proofs.Standard.Recording

/-!
# The letter case of operations does not matter

Operations are compared in two places: a processor looks for the command that a message names, and
the streams look for the operation among those that a stream admits.  Both fold ASCII letters
(`Operation.fold`), so a batch may be sent in capitals, in lower case or in a mixture of the two.

Two runs are compared, on messages that are the same but for the letters of their operations
(`Message.SameButCase`).  One message leaves the same streams behind and is answered alike, the one
exception being the text that quotes an operation which its stream does not admit
(`Policy.FoldsCase.step`).  Whole batches inherit this by induction, and so do the replies that they
leave in the store (`letter_case_irrelevant`).
-/

namespace StreamControl

/-! ## Messages that differ in letters only -/

/-- The second message is the first one with its operation written in other ASCII letter case. -/
inductive Message.SameButCase : Message → Message → Prop
  | mk (m : Message) {operation : Option String} :
    m.operation.map Operation.fold = operation.map Operation.fold →
      SameButCase m { m with operation }

namespace Operation

theorem fold_eq_nil_iff {token : String} : fold token = [] ↔ token = "" := by
  rw [fold, List.map_eq_nil_iff, String.toList_eq_nil_iff]

/-- A token is compared by its folded letters. -/
theorem same_congr {a b : String} (h : fold a = fold b) (c : String) : same a c = same b c := by
  rw [same, same, h]

end Operation

namespace Message

/-- Whether an operation counts as absent shows in its folded letters. -/
theorem map_fold_operation? (m : Message) :
    m.operation?.map Operation.fold = (m.operation.map Operation.fold).filter (· ≠ []) := by
  rw [operation?]
  rcases m.operation with _ | token
  · rfl
  · by_cases hempty : token = ""
    · rw [hempty]
      rfl
    · have hletters : Operation.fold token ≠ [] := fun h => hempty (Operation.fold_eq_nil_iff.1 h)
      rw [Option.filter_some, if_pos (decide_eq_true hempty), Option.map_some, Option.filter_some,
        if_pos (decide_eq_true hletters)]

theorem fold_operationOrEmpty (m : Message) :
    Operation.fold m.operationOrEmpty = (m.operation?.map Operation.fold).getD [] := by
  rw [operationOrEmpty]
  rcases m.operation? with _ | token
  · rfl
  · rfl

/-- Which command a message names shows in the folded letters of its operation. -/
theorem names_iff_map_fold {m : Message} {command : Option String} :
    m.Names command ↔
      ∃ c, command = some c ∧ m.operation?.map Operation.fold = some (Operation.fold c) := by
  rw [names_iff]
  constructor
  · rintro ⟨token, hoperation, hnamed⟩
    obtain ⟨c, hc, hsame⟩ := Option.any_eq_true _ _ |>.1 hnamed
    refine ⟨c, hc, ?_⟩
    rw [hoperation, Option.map_some, Operation.same_iff.1 hsame]
  · rintro ⟨c, rfl, hfold⟩
    obtain ⟨token, hoperation, hletters⟩ := Option.map_eq_some_iff.1 hfold
    exact ⟨token, hoperation, Operation.same_iff.2 hletters⟩

namespace SameButCase

variable {m n : Message}

theorem map_fold_operation? (h : m.SameButCase n) :
    m.operation?.map Operation.fold = n.operation?.map Operation.fold := by
  rw [Message.map_fold_operation?, Message.map_fold_operation?]
  cases h with
  | mk hletters => rw [hletters]

theorem names_iff (h : m.SameButCase n) (command : Option String) :
    m.Names command ↔ n.Names command := by
  rw [names_iff_map_fold, names_iff_map_fold, h.map_fold_operation?]

theorem stream?_eq (h : m.SameButCase n) : m.stream? = n.stream? := by
  cases h
  rfl

theorem columns_eq (h : m.SameButCase n) : m.columns = n.columns := by
  cases h
  rfl

/-- Replies to the two messages are stored at the same path. -/
theorem path_eq (h : m.SameButCase n) (root : String) :
    Acknowledgment.path root m = Acknowledgment.path root n := by
  cases h
  rfl

/-- A stream admits both operations or neither. -/
theorem admits_eq (h : m.SameButCase n) (s : Streams) (stream : String) :
    s.admits stream m.operationOrEmpty = s.admits stream n.operationOrEmpty := by
  have hletters : Operation.fold m.operationOrEmpty = Operation.fold n.operationOrEmpty := by
    rw [fold_operationOrEmpty, fold_operationOrEmpty, h.map_fold_operation?]
  have hsame : Operation.same m.operationOrEmpty = Operation.same n.operationOrEmpty :=
    funext (Operation.same_congr hletters)
  rw [Streams.admits, Streams.admits, hsame]

end SameButCase

end Message

/-! ## Kinds of outcomes -/

/-- What an outcome is, without the text that tells the cause. -/
inductive Outcome.Kind
  | dropped
  | completed (acknowledged : Bool)
  | rejected (code : ReplyCode)
  | failed
deriving DecidableEq, Repr

/-- The kind of an outcome. -/
def Outcome.kind : Outcome → Kind
  | .dropped => .dropped
  | .completed acknowledged => .completed acknowledged
  | .rejected f => .rejected f.code
  | .failed _ => .failed

/-- Reports count kinds of outcomes. -/
theorem Report.record_of_kind {a b : Outcome} (h : a.kind = b.kind) (r : Report) :
    r.record a = r.record b := by
  -- what a report counts is the kind of the outcome, not its texts
  cases a with
  | dropped => cases b <;> cases h; rfl
  | completed acknowledged => cases b <;> cases h; rfl
  | rejected f =>
    cases b with
    | rejected f' => rfl
    | _ => cases h
  | failed detail =>
    cases b with
    | failed detail' => rfl
    | _ => cases h

theorem Report.tally_of_kinds {before after : List Outcome}
    (h : before.map Outcome.kind = after.map Outcome.kind) : tally before = tally after := by
  unfold tally
  generalize zero = counted
  induction before generalizing after counted with
  | nil =>
    rw [List.map_nil, eq_comm, List.map_eq_nil_iff] at h
    rw [h]
  | cons a before ih =>
    obtain ⟨b, after, rfl, hone, hrest⟩ := List.map_eq_cons_iff.1 h.symm
    rw [List.foldl_cons, List.foldl_cons, record_of_kind hone.symm, ih hrest.symm]

namespace Standard

/-! ## One message -/

/-- What is decided about two messages is the same; only, where the stream does not admit the
operation, each is told so about its own. -/
inductive Echoes {α : Type} (m n : Message) : Except Failure α → Except Failure α → Prop
  | same (decided : Except Failure α) : Echoes m n decided decided
  | notAdmitted {stream : String} : m.stream? = some stream →
    Echoes m n (.error (notAdmitted m stream)) (.error (notAdmitted n stream))

namespace Echoes

variable {α β : Type} {m n : Message} {x y : Except Failure α}

theorem map (h : Echoes m n x y) (pass : α → β) : Echoes m n (x.map pass) (y.map pass) := by
  cases h with
  | same => exact .same _
  | notAdmitted hstream => exact .notAdmitted hstream

/-- What becomes of the view is the same. -/
theorem toOption_eq (h : Echoes m n x y) : x.toOption = y.toOption := by
  cases h with
  | same => rfl
  | notAdmitted => rfl

end Echoes

/-- A verdict looks at the operation only to ask whether the stream admits it. -/
theorem echoes_verdictOn {m n : Message} (h : m.SameButCase n)
    (decide : (stream : String) → Streams → Except Failure Streams) (t : Streams) :
    Echoes m n (verdictOn m decide t) (verdictOn n decide t) := by
  unfold verdictOn
  rw [← h.stream?_eq]
  rcases hstream : m.stream? with _ | stream
  · exact .same _
  · dsimp only
    rw [← h.admits_eq]
    -- only the refusal by the stream quotes the operation as it was spelled
    by_cases hadmits : t.admits stream m.operationOrEmpty = true
    · rw [if_pos hadmits, if_pos hadmits]
      exact .same _
    · rw [if_neg hadmits, if_neg hadmits]
      exact .notAdmitted hstream

/-- A policy rules on both of two messages, with verdicts that echo each other, or on neither. -/
def FoldsCase (q : Policy Streams) : Prop :=
  ∀ m n, m.SameButCase n → (q m = none ∧ q n = none) ∨
    ∃ acknowledge verdict verdict', q m = some ⟨acknowledge, verdict⟩ ∧
      q n = some ⟨acknowledge, verdict'⟩ ∧ ∀ t, Echoes m n (verdict t) (verdict' t)

theorem foldsCase_definition : FoldsCase definitionPolicy := by
  intro m n h
  -- neither command tells the two messages apart, so both go the same way
  by_cases hcreate : m.Names (some Operation.create)
  · right
    refine ⟨true, _, _, definitionPolicy_of_create hcreate,
      definitionPolicy_of_create ((h.names_iff _).1 hcreate), fun t => ?_⟩
    rw [createVerdict, createVerdict, h.columns_eq]
    exact echoes_verdictOn h _ t
  · by_cases hdrop : m.Names (some Operation.drop)
    · right
      exact ⟨true, _, _, definitionPolicy_of_drop hdrop,
        definitionPolicy_of_drop ((h.names_iff _).1 hdrop), echoes_verdictOn h _⟩
    · left
      have hother : ¬ IsDefinition m := fun hm => hm.elim hcreate hdrop
      have hother' : ¬ IsDefinition n := fun hn =>
        hother (hn.imp (h.names_iff _).2 (h.names_iff _).2)
      exact ⟨definitionPolicy_eq_none hother, definitionPolicy_eq_none hother'⟩

theorem foldsCase_insert : FoldsCase insertPolicy := by
  intro m n h
  by_cases hinsert : IsInsert m
  · right
    refine ⟨false, _, _, insertPolicy_of_insert hinsert,
      insertPolicy_of_insert ((h.names_iff _).1 hinsert), fun t => ?_⟩
    rw [insertVerdict, insertVerdict, h.columns_eq]
    exact echoes_verdictOn h _ t
  · left
    have hother : ¬ IsInsert n := fun hn => hinsert ((h.names_iff _).2 hn)
    exact ⟨insertPolicy_eq_none hinsert, insertPolicy_eq_none hother⟩

/-! ## Batches -/

/-- The fates of two messages are of the same kind with the same codes, and tell the same unless the
stream does not admit the operation, which each then quotes as it was sent. -/
structure EchoedFates (m n : Message) (f g : Fate) : Prop where
  kinds : f.result.map Outcome.kind = g.result.map Outcome.kind
  codes : f.replies.map (·.code) = g.replies.map (·.code)
  texts : f = g ∨ ∃ stream, m.stream? = some stream ∧
    f = .ended (Processor.conclude (.error (notAdmitted m stream))) ∧
    g = .ended (Processor.conclude (.error (notAdmitted n stream)))

/-- Two messages that differ in letter case, with fates that echo each other at every processor. -/
structure EchoedEntries (a b : Entry) : Prop where
  messages : a.message.SameButCase b.message
  fates : List.Forall₂ (EchoedFates a.message b.message) a.fates b.fates

theorem Echoes.fates {m n : Message} {x y : Except Failure Bool} (h : Echoes m n x y) :
    EchoedFates m n (.ended (Processor.conclude x)) (.ended (Processor.conclude y)) := by
  cases h with
  | same => exact ⟨rfl, rfl, .inl rfl⟩
  | @notAdmitted stream hstream => exact ⟨rfl, rfl, .inr ⟨stream, hstream, rfl, rfl⟩⟩

namespace FoldsCase

variable {q q' : Policy Streams} {m n : Message} {batch batch' : List Message}

/-- One message: the fates echo each other and the streams are left the same. -/
theorem step (hq : FoldsCase q) (h : m.SameButCase n) (t : Streams) :
    EchoedFates m n (.ended (q.answer m t)) (.ended (q.answer n t)) ∧
      q.after m t = q.after n t := by
  unfold Policy.answer Policy.after
  rcases hq m n h with ⟨hm, hn⟩ | ⟨acknowledge, verdict, verdict', hm, hn, hechoes⟩
  · rw [hm, hn]
    exact ⟨⟨rfl, rfl, .inl rfl⟩, rfl⟩
  · rw [hm, hn]
    dsimp only [Ruling.given, Ruling.after]
    constructor
    · exact ((hechoes t).map fun _ => acknowledge).fates
    · rw [(hechoes t).toOption_eq]

theorem afterAll_eq (hq : FoldsCase q) (h : List.Forall₂ Message.SameButCase batch batch')
    (t : Streams) : q.afterAll batch t = q.afterAll batch' t := by
  induction h generalizing t with
  | nil => rfl
  | cons hone _ ih => rw [Policy.afterAll_cons, Policy.afterAll_cons, (hq.step hone t).2, ih]

theorem report_eq (hq : FoldsCase q) (h : List.Forall₂ Message.SameButCase batch batch')
    (t : Streams) : q.report batch t = q.report batch' t := by
  refine Report.tally_of_kinds ?_
  induction h generalizing t with
  | nil => rfl
  | cons hone _ ih =>
    obtain ⟨hfates, hafter⟩ := hq.step hone t
    have hkind := Except.ok.inj hfates.kinds
    simp only [Policy.answers, List.map_cons, hkind, hafter, ih]

/-- The same messages are replied to. -/
theorem replies_alike (hq : FoldsCase q) (h : List.Forall₂ Message.SameButCase batch batch')
    (t : Streams) :
    List.Forall₂ (fun sent sent' => sent.1.SameButCase sent'.1) (q.replies batch t)
      (q.replies batch' t) := by
  induction h generalizing t with
  | nil => exact .nil
  | @cons m n _ _ hone _ ih =>
    obtain ⟨hfates, hafter⟩ := hq.step hone t
    rw [Policy.replies, Policy.replies, ← hafter]
    refine List.rel_append ?_ (ih _)
    -- there is a reply with some code to both messages or to neither
    have hcodes := hfates.codes
    dsimp only [Fate.ended] at hcodes
    rcases hreply : (q.answer m t).2 with _ | reply
    · rcases hreply' : (q.answer n t).2 with _ | reply'
      · exact .nil
      · rw [hreply, hreply'] at hcodes
        contradiction
    · rcases hreply' : (q.answer n t).2 with _ | reply'
      · rw [hreply, hreply'] at hcodes
        contradiction
      · exact .cons hone .nil

theorem entries_echo (hq : FoldsCase q) (hq' : FoldsCase q')
    (h : List.Forall₂ Message.SameButCase batch batch') (t t' : Streams) :
    List.Forall₂ EchoedEntries (q.entries q' batch t t') (q.entries q' batch' t t') := by
  induction h generalizing t t' with
  | nil => exact .nil
  | cons hone _ ih =>
    obtain ⟨hfates, hafter⟩ := hq.step hone t
    obtain ⟨hfates', hafter'⟩ := hq'.step hone t'
    rw [Policy.entries_cons, Policy.entries_cons, ← hafter, ← hafter']
    exact .cons ⟨hone, .cons hfates (.cons hfates' .nil)⟩ (ih _ _)

end FoldsCase

end Standard

/-! ## The store -/

/-- Two stores are read at the same times and have nodes at the same paths, written equally often and
at the same times. -/
structure TimedStore.SameNodes (t u : TimedStore) : Prop where
  clock : t.clock = u.clock
  metadata : ∀ path, (t.store.get? path).map (·.metadata) = (u.store.get? path).map (·.metadata)

/-- What the store itself records about a write does not depend on the data. -/
theorem Store.metadata_written (previous : Option Node) (data : Bytes) (now : Int64) :
    (written previous data now).metadata =
      ((previous.map (·.metadata)).map (·.update now)).getD (.new now) := by
  rcases previous with _ | node
  · rfl
  · rfl

namespace TimedStore.SameNodes

variable {root : String} {t u : TimedStore}

/-- Replies that go to the same path keep the nodes the same, whatever they say. -/
theorem recorded (h : t.SameNodes u) {sent sent' : Message × Reply}
    (hpath : Acknowledgment.path root sent.1 = Acknowledgment.path root sent'.1) :
    (t.recorded root sent).SameNodes (u.recorded root sent') where
  clock := by
    unfold TimedStore.recorded
    rw [h.clock]
  metadata := by
    intro path
    unfold TimedStore.recorded
    dsimp only
    rw [h.clock, Store.get?_put, Store.get?_put, ← hpath]
    -- the metadata of a node tells how often it was written, not what was
    by_cases hthere : Acknowledgment.path root sent.1 = path
    · rw [if_pos hthere, if_pos hthere, Option.map_some, Option.map_some, Store.metadata_written,
        Store.metadata_written, h.metadata]
    · rw [if_neg hthere, if_neg hthere]
      exact h.metadata path

theorem foldl_recorded {sent sent' : List (Message × Reply)}
    (hsent : List.Forall₂ (fun one other => Message.SameButCase one.1 other.1) sent sent')
    (h : t.SameNodes u) :
    (sent.foldl (TimedStore.recorded root) t).SameNodes
      (sent'.foldl (TimedStore.recorded root) u) := by
  induction hsent generalizing t u with
  | nil => exact h
  | cons hone _ ih => exact ih (h.recorded (hone.path_eq root))

end TimedStore.SameNodes

namespace Standard

/-! ## Dispatching -/

/-- A dispatch records the replies that are to be stored, in order, and nothing else. -/
theorem coordination_dispatch (config : Config) (batch : List Message) (s : Engine) :
    ((registry config).dispatch batch s).state.coordination =
      (stored config batch s.streams).foldl (TimedStore.recorded config.coordinationRoot)
        s.coordination := by
  let w := Wiring.engine config
  let defined := (w.definition.handleBatch batch s).state
  have hpart : ∀ s t, Engine.storePart.get (Engine.storePart.set s t) = t := fun _ _ => rfl
  have hstate : ((registry config).dispatch batch s).state =
      (w.insert.handleBatch batch defined).state := by
    rw [← Wiring.registry_engine]
    exact (Registry.dispatch_in_turn rfl w.follows_definition w.follows_insert batch s).2
  have hfirst : defined.coordination = (definitionPolicy.replies batch s.streams).foldl
      (TimedStore.recorded config.coordinationRoot) s.coordination := by
    have hroutes : ∀ branch route, w.definition.route? branch = some route →
        route.Leaves Engine.storePart.get := leaves_of_serves (fun _ _ => rfl) (.definition _)
    have hstore := Processor.store_of_storing (p := w.definition) hpart rfl hroutes batch s
    rw [w.follows_definition.replies_batchCalls batch s] at hstore
    exact hstore
  have hstreams : defined.streams = definitionPolicy.afterAll batch s.streams :=
    w.follows_definition.view_handleBatch batch s
  rw [hstate, stored, List.foldl_append, ← hfirst, ← hstreams]
  cases hstores : config.acknowledgeInserts with
  | true =>
    have hconfig : { config with acknowledgeInserts := true } = config := by rw [← hstores]
    have hsecond := store_of_replying config batch defined
    rw [Wiring.replying, hconfig] at hsecond
    exact hsecond
  | false =>
    have hconfig : { config with acknowledgeInserts := false } = config := by rw [← hstores]
    have hsecond := store_of_not_replying config batch defined
    rw [Wiring.replying, hconfig] at hsecond
    exact hsecond

theorem stored_alike (config : Config) {batch batch' : List Message}
    (h : List.Forall₂ Message.SameButCase batch batch') (t : Streams) :
    List.Forall₂ (fun sent sent' => sent.1.SameButCase sent'.1) (stored config batch t)
      (stored config batch' t) := by
  unfold stored
  refine List.rel_append (foldsCase_definition.replies_alike h t) ?_
  rw [foldsCase_definition.afterAll_eq h]
  split
  · exact foldsCase_insert.replies_alike h _
  · exact .nil

/-- **Operations may be sent in any letter case.**  Two batches that differ in the ASCII letter case
of operations only leave the same streams and the same reports.  Every message ends in the same kind
of outcome and is replied to with the same codes and texts; only the refusal of an operation that a
stream does not admit quotes the operation as it was sent.  The store has nodes at the same paths, with
the same versions and times. -/
theorem letter_case_irrelevant (config : Config) {batch batch' : List Message}
    (h : List.Forall₂ Message.SameButCase batch batch') (s : Engine) :
    let r := registry config
    let after := (r.dispatch batch s).state
    let after' := (r.dispatch batch' s).state
    after.streams = after'.streams ∧
      (∃ reports, (r.dispatch batch s).result = .ok reports ∧
        (r.dispatch batch' s).result = .ok reports) ∧
      List.Forall₂ EchoedEntries (r.account batch s) (r.account batch' s) ∧
      ∀ path, (after.coordination.store.get? path).map (·.metadata) =
        (after'.coordination.store.get? path).map (·.metadata) := by
  intro r after after'
  let w := Wiring.engine config
  let t := w.streams s
  obtain ⟨hresult, hstreams⟩ := w.dispatch_eq batch s
  obtain ⟨hresult', hstreams'⟩ := w.dispatch_eq batch' s
  -- the second pass begins with the same streams
  have hdefined : definitionPolicy.afterAll batch' t = definitionPolicy.afterAll batch t :=
    (foldsCase_definition.afterAll_eq h t).symm
  rw [hdefined] at hresult' hstreams'
  refine ⟨?_, ⟨_, hresult, ?_⟩, ?_, ?_⟩
  · rw [← foldsCase_insert.afterAll_eq h] at hstreams'
    exact hstreams.trans hstreams'.symm
  · rw [← foldsCase_definition.report_eq h, ← foldsCase_insert.report_eq h] at hresult'
    exact hresult'
  · have hentries := foldsCase_definition.entries_echo foldsCase_insert h t
      (definitionPolicy.afterAll batch t)
    have haccount := w.account_eq batch s
    have haccount' := w.account_eq batch' s
    rw [hdefined] at haccount'
    rw [← haccount, ← haccount'] at hentries
    exact hentries
  · intro path
    have hsame : s.coordination.SameNodes s.coordination := ⟨rfl, fun _ => rfl⟩
    have hnodes : after.coordination.SameNodes after'.coordination := by
      rw [coordination_dispatch, coordination_dispatch]
      exact hsame.foldl_recorded (stored_alike config h s.streams)
    exact hnodes.metadata path

/-- A stream is created and one of the engine's own is to be dropped: in lower case, the same happens,
and the refusal quotes the operation in lower case. -/
theorem letter_case_irrelevant_lower :
    let capitals : List Message :=
      [.addressed "CREATE" "orders", .addressed "DROP" "strata_stats_base"]
    let lower : List Message :=
      [.addressed "create" "orders", .addressed "drop" "strata_stats_base"]
    let r := registry Config.default
    let s := Engine.new Config.default (.still 0)
    List.Forall₂ Message.SameButCase capitals lower ∧
      (r.dispatch capitals s).state.streams = (r.dispatch lower s).state.streams ∧
      List.Forall₂ EchoedEntries (r.account capitals s) (r.account lower s) ∧
      (r.account lower s).map (fun entry => entry.fates.flatMap (·.replies)) =
        [[.ok], [.because .streamOperationNotAllowed
          "operation drop is not allowed on stream strata_stats_base"]] := by
  intro capitals lower r s
  have hcreate : Operation.fold "CREATE" = Operation.fold "create" := by decide
  have hdrop : Operation.fold "DROP" = Operation.fold "drop" := by decide
  have hletters : List.Forall₂ Message.SameButCase capitals lower :=
    .cons (.mk _ (congrArg some hcreate)) (.cons (.mk _ (congrArg some hdrop)) .nil)
  obtain ⟨hstreams, -, hentries, -⟩ := letter_case_irrelevant Config.default hletters s
  refine ⟨hletters, hstreams, hentries, ?_⟩
  dsimp only [r, s, lower]
  decide +kernel

end Standard

end StreamControl
