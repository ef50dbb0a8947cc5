import Mathlib.Data.List.Nodup
import Mathlib.Data.Set.List
import Mathlib.Data.String.Basic
import StreamControl.Command.Run
import StreamControl.Proofs.Standard.Acknowledgments
import StreamControl.Proofs.Store.Listing

/-!
# The command prints what was acknowledged

`dispatch-batch` dispatches a batch in a new engine and then prints every record that it finds below
the root.  The writer of a record and the listing each make a path of the root on their own; that they
agree for every root, and that every record can be read back, makes the printed lines exactly the
records of the session and request ids that were replied to (`prints_acknowledgments`).
-/

namespace StreamControl

/-- The ids of a message. -/
def Message.ids (m : Message) : String × String := (m.sessionId, m.requestId)

/-- The path of the record for two ids below a root. -/
def Acknowledgment.place (root : String) (ids : String × String) : String :=
  Path.join root [ids.1, ids.2]

/-- The data of the node at a path; nothing if there is none. -/
def Store.dataAt (s : Store) (path : String) : Bytes := ((s.get? path).map Node.data).getD []

/-- The node for two ids holds the record of the last of some replies to messages with these ids. -/
def Store.HoldsLast (s : Store) (root : String) (replies : List (Message × Reply))
    (ids : String × String) : Prop :=
  ∃ node m reply now, s.get? (Acknowledgment.place root ids) = some node ∧
    (replies.filter fun sent => sent.1.ids = ids).getLast? = some (m, reply) ∧
    node.data = (Acknowledgment.new m reply now).json

/-! ## Listing a ledger -/

section Listing

variable {σ : Type} {part : Part σ TimedStore} {root : String} {t : Traced σ}

theorem Acknowledgment.place_inj {ids ids' : String × String}
    (h : place root ids = place root ids') : ids = ids' := by
  have hlevels := Path.join_inj h
  simp only [List.cons.injEq, and_true] at hlevels
  exact Prod.ext hlevels.1 hlevels.2

/-- The listing at the root holds the places of all ids that were replied to, and nothing else. -/
theorem Ledger.exists_list_eq (h : Ledger part root t) :
    ∃ pairs : List (String × String),
      (part.get t.state).store.list root = pairs.map (Acknowledgment.place root) ∧
      ∀ ids, ids ∈ pairs ↔ ∃ sent ∈ t.calls.filterMap Call.reply?, sent.1.ids = ids := by
  have hplaces : ∀ path ∈ (part.get t.state).store.list root,
      path ∈ Set.range (Acknowledgment.place root) := by
    intro path hlisted
    obtain ⟨sent, -, rfl⟩ := (h.contains_iff path).1 ((Store.mem_list _ _ _).1 hlisted).1
    exact ⟨sent.1.ids, rfl⟩
  obtain ⟨pairs, hpairs⟩ : (part.get t.state).store.list root ∈
      Set.range (List.map (Acknowledgment.place root)) := by
    rw [Set.range_list_map]
    exact hplaces
  refine ⟨pairs, hpairs.symm, fun ids => ?_⟩
  -- different ids have different places, so the listing holds no place but those of `pairs`
  have hlisted : ids ∈ pairs ↔
      Acknowledgment.place root ids ∈ (part.get t.state).store.list root := by
    rw [← hpairs, List.mem_map]
    constructor
    · intro hmem
      exact ⟨ids, hmem, rfl⟩
    · rintro ⟨other, hmem, hsame⟩
      exact Acknowledgment.place_inj hsame ▸ hmem
  rw [hlisted, ← Store.list_join_nil, Acknowledgment.place, Store.join_mem_list_join,
    and_iff_left List.nil_prefix, h.contains_iff]
  refine exists_congr fun sent => and_congr_right fun _ => ?_
  change Acknowledgment.place root ids = Acknowledgment.place root sent.1.ids ↔ _
  exact ⟨fun hsame => (Acknowledgment.place_inj hsame).symm, fun hsame => by rw [hsame]⟩

/-- Where a reply went there is the record of the last one. -/
theorem Ledger.holdsLast (h : Ledger part root t) {ids : String × String}
    (hsent : ∃ sent ∈ t.calls.filterMap Call.reply?, sent.1.ids = ids) :
    (part.get t.state).store.HoldsLast root (t.calls.filterMap Call.reply?) ids := by
  have hnode := h.nodes (Acknowledgment.place root ids)
  rw [Acknowledgment.place, Ledger.repliesAt_ids] at hnode
  -- the ledger asks for the two ids apart, the replies are looked up by the pair
  have hids : (fun sent : Message × Reply =>
      decide (sent.1.sessionId = ids.1 ∧ sent.1.requestId = ids.2)) =
        fun sent => decide (sent.1.ids = ids) := by
    funext sent
    exact decide_eq_decide.2 (Prod.ext_iff (x := sent.1.ids)).symm
  rw [hids, Node.Records] at hnode
  rcases hlast : ((t.calls.filterMap Call.reply?).filter fun sent =>
      sent.1.ids = ids).getLast? with _ | ⟨m, reply⟩
  · -- a reply was sent under these ids, so there is a last one
    obtain ⟨sent, hmem, hsame⟩ := hsent
    have hnone := List.getLast?_eq_none_iff.1 hlast
    exact absurd (decide_eq_true hsame) (List.filter_eq_nil_iff.1 hnone sent hmem)
  · rw [hlast] at hnode
    obtain ⟨node, now, hstored, hdata, -⟩ := hnode
    exact ⟨node, m, reply, now, hstored, hlast, hdata⟩

end Listing

namespace Command

/-! ## Printing -/

/-- Records that can all be read are all printed, as they stand in the store. -/
theorem printRecords_eq {store : Store} {paths : List String}
    (h : ∀ path ∈ paths, ∃ node record, store.get? path = some node ∧
      node.data = Acknowledgment.json record) (printed : List Bytes) :
    printRecords store printed paths = .printing (printed.reverse ++ paths.map store.dataAt) := by
  -- the lines printed so far grow from step to step, newest first
  induction paths generalizing printed with
  | nil => rw [printRecords, List.map_nil, List.append_nil]
  | cons path paths ih =>
    obtain ⟨⟨node, record, hnode, hdata⟩, hrest⟩ := List.forall_mem_cons.1 h
    have hdecoded : Acknowledgment.decode node.data = .ok record := by
      rw [hdata, Acknowledgment.decode_json_self]
    have hline : store.dataAt path = record.json := by
      rw [Store.dataAt, hnode, ← hdata]
      rfl
    rw [printRecords, hnode]
    dsimp only
    rw [hdecoded]
    dsimp only
    rw [ih hrest, List.reverse_cons, List.append_assoc, List.singleton_append, List.map_cons, hline]

/-- The command dispatches the batch in a new engine and reports the rest. -/
theorem dispatch_eq (config : Config) (clock : Clock) (batch : List Message) :
    (∃ reports, (dispatch config clock batch).result = .ok reports) ∧
      (dispatch config clock batch).state =
        ((Standard.registry config).dispatch batch (.new config clock)).state := by
  obtain ⟨hresult, -⟩ := (Standard.Wiring.engine config).dispatch_eq batch (.new config clock)
  rw [Standard.Wiring.registry_engine] at hresult
  unfold dispatch
  dsimp only
  rw [Step.bind_apply, Step.bind_apply]
  dsimp only [Step.emit]
  rw [hresult]
  exact ⟨⟨_, rfl⟩, rfl⟩

/-- Once the batch is dispatched, the records that the store lists below the root are printed. -/
theorem dispatchFile_eq {options : Options} {clock : Clock} {content : Bytes} {batch : List Message}
    {reports : List (String × Report)} (hdecoded : Message.decodeBatch content = .ok batch)
    (hresult : (dispatch options.config clock batch).result = .ok reports) :
    let store := (dispatch options.config clock batch).state.coordination.store
    let paths := store.list options.config.coordinationRoot
    (∀ path ∈ paths, ∃ node record, store.get? path = some node ∧
      node.data = Acknowledgment.json record) →
    dispatchFile options clock (some content) = .printing (paths.map store.dataAt) := by
  intro store paths hrecords
  rw [dispatchFile, hdecoded]
  dsimp only
  rw [hresult]
  exact printRecords_eq hrecords []

/-! ## Main result -/

/-- **The command prints every reply that was stored, and nothing else.**  Let the options be readable
and the log filter well formed; then the command reads the file of the batch.  If its content decodes,
then whatever the root, the streams of the engine and the treatment of events are, the dispatch
succeeds and no record is corrupt.  The replies to all messages that create or drop a stream are
stored, those to refused events only if the options say so.  One line is printed for each pair of ids
that a stored reply went to, in the order of the paths, and the line is what the store holds for the
pair: the record of the last of these replies.  If the content does not decode, nothing is dispatched
and no line is printed. -/
theorem prints_acknowledgments (options : Options) (clock : Clock) :
    (∀ arguments environment, readOptions arguments environment = .ok (.run options) →
      checkFilters options.logFilter (environment fallbackFilterVariable) = .ok () →
      plan arguments environment clock = .load options.batch (dispatchFile options clock)) ∧
    (∀ content batch, Message.decodeBatch content = .ok batch →
      let config := options.config
      let ran := dispatch config clock batch
      let store := ran.state.coordination.store
      let calls := (Standard.registry config).calls batch (.new config clock)
      let acknowledged := (calls.filterMap Call.reply?).filter fun sent =>
        Standard.IsDefinition sent.1 ∨ config.acknowledgeInserts = true
      acknowledged = Standard.stored config batch config.streams ∧
      (∀ m ∈ batch, Standard.IsDefinition m → ∃ reply, (m, reply) ∈ acknowledged) ∧
      (∀ sent ∈ acknowledged, sent.1 ∈ batch ∧ (Standard.IsDefinition sent.1 ∨
        config.acknowledgeInserts = true ∧ Standard.IsInsert sent.1 ∧
          ∃ e : Failure, sent.2 = e.reply)) ∧
      (∃ reports, ran.result = .ok reports) ∧
      ∃ pairs : List (String × String),
        dispatchFile options clock (some content) = .printing (pairs.map fun ids =>
          store.dataAt (Acknowledgment.place config.coordinationRoot ids)) ∧
        pairs.Nodup ∧
        (∀ ids, ids ∈ pairs ↔ ∃ sent ∈ acknowledged, sent.1.ids = ids) ∧
        (pairs.map (Acknowledgment.place config.coordinationRoot)).Pairwise (· < ·) ∧
        ∀ ids ∈ pairs, store.HoldsLast config.coordinationRoot acknowledged ids) ∧
    ∀ content fault, Message.decodeBatch content = .error fault →
      dispatchFile options clock (some content) =
        .failing [] ("failed to decode batch " ++ options.batch) := by
  refine ⟨?_, ?_, ?_⟩
  · intro arguments environment hoptions hfilters
    rw [plan, hoptions]
    dsimp only
    rw [hfilters]
  · intro content batch hdecoded config ran store calls acknowledged
    obtain ⟨⟨reports, hresult⟩, hstate⟩ := dispatch_eq config clock batch
    have hstored : acknowledged = Standard.stored config batch config.streams :=
      (Standard.Wiring.engine config).filter_replies_dispatch batch (.new config clock)
    -- the calls that reached the store are all of them, or those of the first processor alone
    obtain ⟨storing, hreplies, hledger⟩ :=
      Standard.ledger_dispatch config batch (s := .new config clock) rfl
    have hacknowledged : storing.filterMap Call.reply? = acknowledged := hreplies.trans hstored.symm
    rw [← hstate] at hledger
    -- the listing of the store tells the pairs: each path that it gives is the place of one
    obtain ⟨pairs, hlist, hpairs⟩ := hledger.exists_list_eq
    change store.list config.coordinationRoot = _ at hlist
    have hrecords : ∀ ids ∈ pairs, store.HoldsLast config.coordinationRoot acknowledged ids := by
      intro ids hids
      rw [← hacknowledged]
      exact hledger.holdsLast ((hpairs ids).1 hids)
    rw [hacknowledged] at hpairs
    have hprinted : dispatchFile options clock (some content) = .printing (pairs.map fun ids =>
        store.dataAt (Acknowledgment.place config.coordinationRoot ids)) := by
      have hlisted : ∀ path ∈ store.list config.coordinationRoot, ∃ node record,
          store.get? path = some node ∧ node.data = Acknowledgment.json record := by
        rw [hlist]
        intro path hpath
        obtain ⟨ids, hids, rfl⟩ := List.mem_map.1 hpath
        obtain ⟨node, m, reply, now, hnode, -, hdata⟩ := hrecords ids hids
        exact ⟨node, _, hnode, hdata⟩
      rw [dispatchFile_eq hdecoded hresult hlisted, hlist, List.map_map]
      rfl
    have hascending :
        (pairs.map (Acknowledgment.place config.coordinationRoot)).Pairwise (· < ·) := by
      rw [← hlist]
      exact (Store.list_sorted _ _).imp compare_lt_iff_lt.1
    -- two equal pairs would have the same path, and the paths ascend strictly
    have hnodup : pairs.Nodup := .of_map _ (hascending.imp ne_of_lt)
    refine ⟨hstored, ?_, ?_, ⟨reports, hresult⟩, pairs, hprinted, hnodup, hpairs, hascending,
      hrecords⟩
    · rw [hstored]
      exact fun m hm hdefinition => Standard.exists_mem_stored hm hdefinition
    · rw [hstored]
      exact fun sent hsent => Standard.mem_stored hsent
  · intro content fault hfault
    rw [dispatchFile, hfault]

/-- A root that ends in slashes and holds a percent sign: a stream is created and dropped under the
same ids, one of which is empty, and an event for a missing stream is refused.  There are two lines. -/
theorem prints_acknowledgments_escaped :
    let arguments := ["--coordination-root=/acks%//", "--acknowledge-inserts", "batch.json"]
    let environment : String → Option String := fun _ => none
    let config : Config := { Config.default with
      nodeId := "local", coordinationRoot := "/acks%//", acknowledgeInserts := true }
    let options : Options := ⟨"batch.json", config, .text, none⟩
    let creation := (Message.addressed "CREATE" "orders").identified "a/b" ""
    let event := (Message.addressed "INSERT" "sales").identified "a" "1"
    let drop := (Message.addressed "drop" "orders").identified "a/b" ""
    let batch := [creation, event, drop]
    let content := Message.batchJson batch
    readOptions arguments environment = .ok (.run options) ∧
      checkFilters options.logFilter (environment fallbackFilterVariable) = .ok () ∧
      plan arguments environment (.still 5) =
        .load "batch.json" (dispatchFile options (.still 5)) ∧
      Message.decodeBatch content = .ok batch ∧
      (∃ pairs : List (String × String), ∃ line : String × String → Bytes,
        dispatchFile options (.still 5) (some content) = .printing (pairs.map line) ∧
        pairs.Nodup ∧ (∀ ids, ids ∈ pairs ↔ ids = ("a/b", "") ∨ ids = ("a", "1")) ∧
        ∃ now, line ("a/b", "") = (Acknowledgment.new drop .ok now).json) ∧
      (∃ fault, Message.decodeBatch [] = .error fault) ∧
      dispatchFile options (.still 5) (some []) =
        .failing [] "failed to decode batch batch.json" := by
  intro arguments environment config options creation event drop batch content
  have hoptions : readOptions arguments environment = .ok (.run options) := by decide +kernel
  have hfilters : checkFilters options.logFilter (environment fallbackFilterVariable) = .ok () := rfl
  have hdecoded : Message.decodeBatch content = .ok batch := by decide +kernel
  obtain ⟨fault, hfault⟩ : ∃ fault, Message.decodeBatch [] = .error fault := ⟨_, rfl⟩
  have hstored : Standard.stored config batch config.streams =
      [(creation, .ok), (drop, .ok),
        (event, .because .streamDoesNotExist "stream sales does not exist")] := by decide +kernel
  obtain ⟨hplan, hprinted, hfailing⟩ := prints_acknowledgments options (.still 5)
  obtain ⟨hacknowledged, -, -, -, pairs, hexit, hnodup, hpairs, -, hrecords⟩ :=
    hprinted content batch hdecoded
  rw [hacknowledged, hstored] at hpairs hrecords
  have hids : ∀ ids, ids ∈ pairs ↔ ids = ("a/b", "") ∨ ids = ("a", "1") := by
    intro ids
    rw [hpairs]
    simp [creation, drop, event, Message.ids, Message.identified, eq_comm]
  obtain ⟨node, m, reply, now, hnode, hlast, hdata⟩ := hrecords ("a/b", "") ((hids _).2 (.inl rfl))
  -- of the two replies under these ids the record keeps the one to the drop
  obtain ⟨rfl, rfl⟩ : m = drop ∧ reply = .ok := by
    have hown : ([(creation, .ok), (drop, .ok), (event, .because .streamDoesNotExist
        "stream sales does not exist")] : List (Message × Reply)).filter
          (fun sent => sent.1.ids = ("a/b", "")) = [(creation, .ok), (drop, .ok)] := by decide
    rw [hown] at hlast
    exact (Prod.mk.inj (Option.some.inj hlast)).imp Eq.symm Eq.symm
  refine ⟨hoptions, hfilters, hplan arguments environment hoptions hfilters, hdecoded,
    ⟨pairs, _, hexit, hnodup, hids, now, ?_⟩, ⟨fault, hfault⟩, hfailing [] fault hfault⟩
  rw [Store.dataAt, hnode, ← hdata]
  rfl

end Command

end StreamControl
