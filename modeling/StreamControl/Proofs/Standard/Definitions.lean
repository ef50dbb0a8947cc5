import StreamControl.Proofs.Standard.Lifecycles
import StreamControl.Proofs.Standard.Reach

/-!
# How creations and drops are decided

`Defines` states by rules how a message that creates or drops a stream ends, what is replied and what
becomes of the streams.  The reasons to refuse one are tested in a fixed order, so every rule also says
that the tests before it passed; where a column is at fault, the rule names the first.  Nothing in the
rules refers to the processor.  `Wiring.definition_decides` says that the processor does exactly what
the rules allow.
-/

namespace StreamControl

variable {σ : Type}

/-! ## The columns of a creation -/

namespace Streams

variable {stream : String}

/-- The first column without a type is the one that is reported. -/
theorem declarations_eq_error_iff {columns : List Column} {e : StreamError} :
    declarations stream columns = .error e ↔
      ∃ before c after, columns = before ++ c :: after ∧ (∀ d ∈ before, d.type ≠ none) ∧
        c.type = none ∧ e = .missingColumnType stream c.name := by
  induction columns with
  | nil => simp [declarations]
  | cons first columns ih =>
    rw [declarations]
    -- a first column without a type is the one reported; with one, the search goes on behind it
    rcases htype : first.type with _ | type
    · constructor
      · rintro ⟨⟩
        exact ⟨[], first, columns, rfl, List.forall_mem_nil _, htype, rfl⟩
      · rintro ⟨before, c, after, hcolumns, htyped, -, rfl⟩
        rcases List.cons_eq_append_iff.1 hcolumns with ⟨rfl, hsplit⟩ | ⟨rest, rfl, -⟩
        · rw [(List.cons.inj hsplit).1]
        · exact absurd htype (htyped first List.mem_cons_self)
    · constructor
      · intro h
        rcases hrest : declarations stream columns with e' | declared
        · rw [hrest] at h
          obtain ⟨before, c, after, rfl, htyped, hc⟩ := ih.1 (hrest.trans h)
          refine ⟨first :: before, c, after, rfl, List.forall_mem_cons.2 ⟨?_, htyped⟩, hc⟩
          rw [htype]
          exact Option.some_ne_none type
        · rw [hrest] at h
          contradiction
      · rintro ⟨before, c, after, hcolumns, htyped, hc, he⟩
        rcases List.cons_eq_append_iff.1 hcolumns with ⟨rfl, hsplit⟩ | ⟨rest, rfl, rfl⟩
        · rw [(List.cons.inj hsplit).1, htype] at hc
          contradiction
        · rw [ih.2 ⟨rest, c, after, rfl, (List.forall_mem_cons.1 htyped).2, hc, he⟩]

/-- The declarations are the names and types of the columns, in order. -/
theorem declarations_of_declares {columns : List Column} {declared : List Declaration}
    (h : columns.map (fun c => (c.name, c.type)) = declared.map fun d => (d.name, some d.type)) :
    declarations stream columns = .ok declared := by
  induction columns generalizing declared with
  | nil =>
    rw [List.map_eq_nil_iff.1 h.symm]
    rfl
  | cons c columns ih =>
    -- columns and declarations run out together
    rcases declared with _ | ⟨d, declared⟩
    · contradiction
    · obtain ⟨hfirst, hrest⟩ := List.cons.inj h
      obtain ⟨hname, htype⟩ := Prod.mk.inj hfirst
      rw [declarations, htype, ih hrest, hname]

/-- A name occurred before if it was seen at the start or since. -/
theorem mem_seen_or {seen before : List String} {n first : String} :
    n ∈ first :: seen ∨ n ∈ before ↔ n ∈ seen ∨ n ∈ first :: before := by
  rw [List.mem_cons, List.mem_cons, or_comm (a := n = first), or_assoc]

/-- The name that is reported is the first that occurred before. -/
theorem firstRepeated?_eq_some_iff {seen names : List String} {n : String} :
    firstRepeated? seen names = some n ↔
      ∃ before after, names = before ++ n :: after ∧ before.Nodup ∧ (∀ b ∈ before, b ∉ seen) ∧
        (n ∈ seen ∨ n ∈ before) := by
  induction names generalizing seen with
  | nil => simp [firstRepeated?]
  | cons first names ih =>
    rw [firstRepeated?]
    by_cases hseen : first ∈ seen
    · rw [if_pos hseen]
      constructor
      · rintro ⟨⟩
        exact ⟨[], names, rfl, .nil, List.forall_mem_nil _, .inl hseen⟩
      · rintro ⟨before, after, hnames, -, hfresh, -⟩
        rcases List.cons_eq_append_iff.1 hnames with ⟨rfl, hsplit⟩ | ⟨rest, rfl, -⟩
        · rw [(List.cons.inj hsplit).1]
        · exact absurd hseen (hfresh first List.mem_cons_self)
    · rw [if_neg hseen, ih]
      -- what was seen grows by the first name, which is not repeated itself
      constructor
      · rintro ⟨before, after, rfl, hnodup, hfresh, hrepeated⟩
        have hfirst : first ∉ before := fun hmem => hfresh first hmem List.mem_cons_self
        refine ⟨first :: before, after, rfl, List.nodup_cons.2 ⟨hfirst, hnodup⟩, List.forall_mem_cons.2
          ⟨hseen, fun b hb hmem => hfresh b hb (List.mem_cons_of_mem first hmem)⟩,
          mem_seen_or.1 hrepeated⟩
      · rintro ⟨before, after, hnames, hnodup, hfresh, hrepeated⟩
        rcases List.cons_eq_append_iff.1 hnames with ⟨rfl, hsplit⟩ | ⟨rest, rfl, rfl⟩
        · rw [(List.cons.inj hsplit).1] at hrepeated
          exact absurd (hrepeated.resolve_right List.not_mem_nil) hseen
        · obtain ⟨hfirst, hrest⟩ := List.nodup_cons.1 hnodup
          refine ⟨rest, after, rfl, hrest, fun b hb hmem => ?_, mem_seen_or.2 hrepeated⟩
          rcases List.mem_cons.1 hmem with rfl | hmem
          · exact hfirst hb
          · exact hfresh b (List.mem_cons_of_mem first hb) hmem

end Streams

theorem Message.Declares.names {m : Message} {declared : List Declaration}
    (h : m.Declares declared) : m.columns.map (·.name) = declared.map (·.name) := by
  have hnames := congrArg (List.map Prod.fst) h
  rw [List.map_map, List.map_map] at hnames
  exact hnames

namespace Standard

variable {m : Message} {t t' : Streams} {stream : String} {f : Refusal}

/-! ## Rules -/

/-- Why a creation is refused. -/
inductive CreationRefused (m : Message) (t : Streams) : Refusal → Prop
  | barred {f : Refusal} : Barred m t f → CreationRefused m t f
  | taken {stream : String} : Reaches m t stream → t.contains stream = true →
      CreationRefused m t ⟨.streamAlreadyExists, "stream " ++ stream ++ " already exists"⟩
  /-- The first column without a type is at fault, whether or not a name is repeated. -/
  | untyped {stream : String} {before after : List Column} {c : Column} :
      Reaches m t stream → t.contains stream = false →
      m.columns = before ++ c :: after → (∀ d ∈ before, d.type ≠ none) → c.type = none →
      CreationRefused m t
        ⟨.parserError, "column " ++ c.name ++ " of stream " ++ stream ++ " has no declared type"⟩
  /-- The first column whose name occurred before is at fault. -/
  | repeated {stream : String} {before after : List Column} {c : Column} :
      Reaches m t stream → t.contains stream = false → (∀ d ∈ m.columns, d.type ≠ none) →
      m.columns = before ++ c :: after → (before.map (·.name)).Nodup →
      c.name ∈ before.map (·.name) →
      CreationRefused m t ⟨.columnAlreadyExists,
        "column " ++ c.name ++ " is declared more than once for stream " ++ stream⟩

/-- Why a drop is refused. -/
inductive DropRefused (m : Message) (t : Streams) : Refusal → Prop
  | barred {f : Refusal} : Barred m t f → DropRefused m t f
  | missing {stream : String} : Reaches m t stream → t.contains stream = false →
      DropRefused m t ⟨.streamDoesNotExist, "stream " ++ stream ++ " does not exist"⟩
  | notUserDefined {stream : String} : Reaches m t stream → t.contains stream = true →
      t.isUserDefined stream = false →
      DropRefused m t ⟨.streamIsNotUserDefined, "stream " ++ stream ++ " is not user defined"⟩

/-- How a message ends that may create or drop a stream, with the reply and the streams afterwards. -/
inductive Defines (m : Message) (t : Streams) : Outcome → Option Reply → Streams → Prop
  | ignored : ¬ IsDefinition m → Defines m t .dropped none t
  | notCreated {f : Refusal} : m.Names (some Operation.create) → CreationRefused m t f →
      Defines m t (.rejected f) (some ⟨f.code, some f.detail⟩) t
  /-- The new stream is a user's, declares the columns of the message and has no events. -/
  | created {stream : String} {declared : List Declaration} {t' : Streams} :
      m.Names (some Operation.create) → Reaches m t stream → t.contains stream = false →
      m.Declares declared → (declared.map (·.name)).Nodup →
      t'.internalOperations = t.internalOperations →
      (∀ name, t'.get? name =
        if name = stream then some ⟨⟨stream, declared, true⟩, []⟩ else t.get? name) →
      Defines m t (.completed true) (some ⟨.ok, none⟩) t'
  | notDropped {f : Refusal} : m.Names (some Operation.drop) → DropRefused m t f →
      Defines m t (.rejected f) (some ⟨f.code, some f.detail⟩) t
  | dropped {stream : String} {t' : Streams} :
      m.Names (some Operation.drop) → Reaches m t stream → t.isUserDefined stream = true →
      t'.internalOperations = t.internalOperations →
      (∀ name, t'.get? name = if name = stream then none else t.get? name) →
      Defines m t (.completed true) (some ⟨.ok, none⟩) t'

/-! ## What the verdicts say -/

/-- A creation that reaches a free stream is decided by its columns. -/
theorem createVerdict_of_free (hreaches : Reaches m t stream) (hfree : t.contains stream = false) :
    createVerdict m t = (t.create stream m.columns).mapError .ofStreamError := by
  rw [createVerdict, hreaches.verdictOn_eq, hfree]
  rfl

theorem CreationRefused.createVerdict_eq (h : CreationRefused m t f) :
    createVerdict m t = .error (.refused f) := by
  cases h with
  | barred hbarred => exact hbarred.verdictOn_eq
  | taken hreaches hcontains =>
    rw [createVerdict, hreaches.verdictOn_eq]
    exact if_pos hcontains
  | @untyped stream before after c hreaches hfree hcolumns htyped hc =>
    have huntyped : Streams.declarations stream m.columns =
        .error (.missingColumnType stream c.name) :=
      Streams.declarations_eq_error_iff.2 ⟨before, c, after, hcolumns, htyped, hc, rfl⟩
    rw [createVerdict_of_free hreaches hfree, Streams.create, huntyped]
    rfl
  | @repeated stream before after c hreaches hfree htyped hcolumns hnodup hmem =>
    rcases hdeclarations : Streams.declarations stream m.columns with e | declared
    · -- every column has a type, so none is missed
      obtain ⟨_, d, _, hsplit, -, hd, -⟩ := Streams.declarations_eq_error_iff.1 hdeclarations
      exact absurd hd (htyped d (hsplit ▸ List.mem_append_cons_self))
    · have hnames : m.columns.map (·.name) = declared.map (·.name) :=
        Message.Declares.names (declares_of_declarations hdeclarations)
      have hsplit : declared.map (·.name) =
          before.map (·.name) ++ c.name :: after.map (·.name) := by
        rw [← hnames, hcolumns, List.map_append, List.map_cons]
      -- names are compared as they are declared, so the first repeated one is that of the columns
      have hrepeated : Streams.firstRepeated? [] (declared.map (·.name)) = some c.name :=
        Streams.firstRepeated?_eq_some_iff.2
          ⟨_, _, hsplit, hnodup, fun _ _ => List.not_mem_nil, .inr hmem⟩
      rw [createVerdict_of_free hreaches hfree, Streams.create, hdeclarations]
      dsimp only
      rw [hrepeated]
      rfl

/-- A name is declared twice before a column comes that has no type: the missing type decides. -/
example :
    createVerdict ((Message.addressed "CREATE" "orders").carrying
      [.declaring "id" .long, .declaring "id" .long, .carrying "total" .null]) (.empty []) =
      .error (.refused ⟨.parserError, "column total of stream orders has no declared type"⟩) :=
  rfl

/-- A creation that nothing speaks against puts the declared stream in place. -/
theorem createVerdict_of_declares {declared : List Declaration} (hreaches : Reaches m t stream)
    (hfree : t.contains stream = false) (hdeclares : m.Declares declared)
    (hnodup : (declared.map (·.name)).Nodup) :
    createVerdict m t = .ok (t.install (.user stream declared)) := by
  have hcreated : t.create stream m.columns = .ok (t.install (.user stream declared)) :=
    Streams.create_eq_ok_iff.2 ⟨declared, Streams.declarations_of_declares hdeclares,
      Streams.firstRepeated?_eq_none_iff.2 ⟨hnodup, fun _ _ => List.not_mem_nil⟩, hfree, rfl⟩
  rw [createVerdict_of_free hreaches hfree, hcreated]
  rfl

theorem DropRefused.dropVerdict_eq (h : DropRefused m t f) :
    dropVerdict m t = .error (.refused f) := by
  cases h with
  | barred hbarred => exact hbarred.verdictOn_eq
  | missing hreaches hfree =>
    rw [dropVerdict, hreaches.verdictOn_eq, hfree]
    rfl
  | notUserDefined hreaches hcontains huser =>
    rw [dropVerdict, hreaches.verdictOn_eq, hcontains, huser]
    rfl

/-- A drop of a stream that a user created is carried out. -/
theorem dropVerdict_of_isUserDefined (hreaches : Reaches m t stream)
    (huser : t.isUserDefined stream = true) :
    ∃ t', t.drop stream = .ok t' ∧ dropVerdict m t = .ok t' := by
  -- a stream that somebody owns exists
  have hcontains : t.contains stream = true := by
    rw [Streams.isUserDefined, Streams.schema?] at huser
    rw [Streams.contains]
    rcases hget : t.get? stream with _ | found
    · rw [hget] at huser
      contradiction
    · rfl
  have hdropped := Streams.drop_eq_ok_iff.2 ⟨hcontains, rfl⟩
  refine ⟨_, hdropped, ?_⟩
  rw [dropVerdict, hreaches.verdictOn_eq, hcontains, huser, hdropped]
  rfl

/-! ## The rules and the policy -/

/-- The policy does what the rules say. -/
theorem Defines.policy_eq {outcome : Outcome} {reply? : Option Reply}
    (h : Defines m t outcome reply? t') :
    definitionPolicy.answer m t = (outcome, reply?) ∧ definitionPolicy.after m t = t' := by
  cases h with
  | ignored hnot =>
    have hnone := definitionPolicy_eq_none hnot
    exact ⟨Policy.answer_of_none hnone, Policy.after_of_none hnone⟩
  | notCreated hnames hrefused =>
    exact Policy.of_refused (definitionPolicy_of_create hnames) hrefused.createVerdict_eq
  | @created stream declared _ hnames hreaches hfree hdeclares hnodup hoperations hstreams =>
    -- the rule says of every name what it stands for afterwards, and that determines the streams
    have hafter : t' = t.install (.user stream declared) := by
      refine Streams.ext_get? (fun name => ?_) hoperations
      rw [hstreams, Streams.get?_install]
      exact if_congr eq_comm rfl rfl
    rw [hafter]
    exact Policy.of_done (definitionPolicy_of_create hnames)
      (createVerdict_of_declares hreaches hfree hdeclares hnodup)
  | notDropped hnames hrefused =>
    exact Policy.of_refused (definitionPolicy_of_drop hnames) hrefused.dropVerdict_eq
  | @dropped stream _ hnames hreaches huser hoperations hstreams =>
    obtain ⟨after, hdropped, hverdict⟩ := dropVerdict_of_isUserDefined hreaches huser
    have hafter : t' = after := by
      refine Streams.ext_get? (fun name => ?_) ?_
      · rw [hstreams, Streams.get?_drop hdropped]
        exact if_congr eq_comm rfl rfl
      · rw [hoperations, (Streams.drop_eq_ok_iff.1 hdropped).2]
    rw [hafter]
    exact Policy.of_done (definitionPolicy_of_drop hnames) hverdict

/-- Of columns that all have a type but repeat a name, the first that does is at fault. -/
theorem exists_repeated {declared : List Declaration} (hreaches : Reaches m t stream)
    (hfree : t.contains stream = false) (hdeclares : m.Declares declared)
    (hnodup : ¬ (declared.map (·.name)).Nodup) : ∃ f, CreationRefused m t f := by
  have htyped : ∀ c ∈ m.columns, c.type ≠ none := by
    intro c hc
    obtain ⟨d, -, hd⟩ := List.mem_map.1 (hdeclares ▸ List.mem_map_of_mem hc)
    rw [← (Prod.mk.inj hd).2]
    exact Option.some_ne_none d.type
  -- the search for repeated names finds one unless all are distinct
  rcases hfirst : Streams.firstRepeated? [] (m.columns.map (·.name)) with _ | n
  · rw [hdeclares.names] at hfirst
    exact absurd (Streams.firstRepeated?_eq_none_iff.1 hfirst).1 hnodup
  · obtain ⟨before, after, hsplit, hbefore, -, hmem⟩ :=
      Streams.firstRepeated?_eq_some_iff.1 hfirst
    obtain ⟨columns, rest, hcolumns, rfl, hrest⟩ := List.map_eq_append_iff.1 hsplit
    obtain ⟨c, others, rfl, rfl, -⟩ := List.map_eq_cons_iff.1 hrest
    exact ⟨_, .repeated hreaches hfree htyped hcolumns hbefore
      (hmem.resolve_left List.not_mem_nil)⟩

/-- A creation is refused, or the columns can be declared for a stream whose name is free. -/
theorem creationRefused_or (m : Message) (t : Streams) :
    (∃ f, CreationRefused m t f) ∨ ∃ stream declared, Reaches m t stream ∧
      t.contains stream = false ∧ m.Declares declared ∧ (declared.map (·.name)).Nodup := by
  -- the reasons to refuse are tried in the order in which the processor finds them
  obtain ⟨stream, hreaches⟩ | ⟨f, hbarred⟩ := reaches_or_barred m t
  · rcases hcontains : t.contains stream with _ | _
    · rcases hdeclarations : Streams.declarations stream m.columns with e | declared
      · obtain ⟨before, c, after, hcolumns, htyped, hc, -⟩ :=
          Streams.declarations_eq_error_iff.1 hdeclarations
        exact .inl ⟨_, .untyped hreaches hcontains hcolumns htyped hc⟩
      · have hdeclares : m.Declares declared := declares_of_declarations hdeclarations
        by_cases hnodup : (declared.map (·.name)).Nodup
        · exact .inr ⟨stream, declared, hreaches, hcontains, hdeclares, hnodup⟩
        · exact .inl (exists_repeated hreaches hcontains hdeclares hnodup)
    · exact .inl ⟨_, .taken hreaches hcontains⟩
  · exact .inl ⟨f, .barred hbarred⟩

/-- The rules say of every message how it ends. -/
theorem exists_defines (m : Message) (t : Streams) :
    ∃ outcome reply? t', Defines m t outcome reply? t' := by
  -- the message is a creation, a drop or neither; each of the rules applies somewhere
  by_cases hcreate : m.Names (some Operation.create)
  · obtain ⟨f, hrefused⟩ | ⟨stream, declared, hreaches, hfree, hdeclares, hnodup⟩ :=
      creationRefused_or m t
    · exact ⟨_, _, _, .notCreated hcreate hrefused⟩
    · refine ⟨_, _, t.install (.user stream declared),
        .created hcreate hreaches hfree hdeclares hnodup rfl fun name => ?_⟩
      rw [Streams.get?_install]
      exact if_congr eq_comm rfl rfl
  · by_cases hdrop : m.Names (some Operation.drop)
    · obtain ⟨stream, hreaches⟩ | ⟨f, hbarred⟩ := reaches_or_barred m t
      · rcases huser : t.isUserDefined stream with _ | _
        · rcases hcontains : t.contains stream with _ | _
          · exact ⟨_, _, _, .notDropped hdrop (.missing hreaches hcontains)⟩
          · exact ⟨_, _, _, .notDropped hdrop (.notUserDefined hreaches hcontains huser)⟩
        · obtain ⟨after, hdropped, -⟩ := dropVerdict_of_isUserDefined hreaches huser
          refine ⟨_, _, after, .dropped hdrop hreaches huser ?_ fun name =>
            (Streams.get?_drop hdropped name).trans (if_congr eq_comm rfl rfl)⟩
          rw [(Streams.drop_eq_ok_iff.1 hdropped).2]
      · exact ⟨_, _, _, .notDropped hdrop (.barred hbarred)⟩
    · exact ⟨_, _, _, .ignored fun hdefines => hdefines.elim hcreate hdrop⟩

/-! ## What an action can still fail with -/

end Standard

/-- What an action failed with, if a call is one of an action that failed. -/
def Call.actionFailure? : Call σ → Option Failure
  | .action _ _ _ (.error e) => some e
  | _ => none

/-- An action only fails on a state that every validator before it let pass. -/
theorem Route.passed_of_actionFailure {τ : Type} {view : σ → τ} {processor : String}
    {route : Route σ} {m : Message} {rules : List (τ → Except Failure Unit)} {acknowledge : Bool}
    {change : τ → Except Failure τ}
    (hchecks : List.Forall₂ (fun v rule => (v.check m).Reads view rule) route.chain.validators rules)
    (haction : (route.action m).Decides view acknowledge change) {s : σ} {c : Call σ}
    (hc : c ∈ ((route.traced processor).execute m).calls s) {e : Failure}
    (hfailed : c.actionFailure? = some e) :
    (∀ rule ∈ rules, rule (view s) = .ok ()) ∧ change (view s) = .error e := by
  obtain ⟨hran, hview⟩ := Chain.reads_runAll hchecks s
  have hdecides := haction (route.chain.run m s).state
  rw [Chain.run, hview] at hdecides
  rw [calls_execute] at hc
  -- the call of the action is the last one of the route, and made only if the chain passed
  rcases List.mem_append.1 hc with hc | hc
  · obtain ⟨v, gave, rfl⟩ := Chain.mem_calls_runAll hc
    contradiction
  rcases hrun : (route.chain.run m s).result with e' | ⟨⟩
  · rw [hrun] at hc
    exact absurd hc List.not_mem_nil
  rw [hrun] at hc
  rw [List.mem_singleton.1 hc, Chain.run] at hfailed
  refine ⟨Chain.ruling_eq_ok_iff.1 (hran.symm.trans hrun), ?_⟩
  rcases hchange : change (view s) with e' | t
  · rw [hchange] at hdecides
    rw [hdecides.1] at hfailed
    rw [Option.some.inj hfailed]
  · rw [hchange] at hdecides
    rw [hdecides.1] at hfailed
    contradiction

/-- Creating a stream whose name is free can only fail on its columns. -/
theorem Streams.create_eq_error {t : Streams} {stream : String} {columns : List Column}
    {e : StreamError} (hfree : t.contains stream = false) (h : t.create stream columns = .error e) :
    ∃ column, e = .missingColumnType stream column ∨ e = .columnAlreadyExists stream column := by
  unfold create at h
  split at h
  · rename_i hdeclarations
    obtain ⟨_, c, _, -, -, -, rfl⟩ := declarations_eq_error_iff.1 hdeclarations
    cases h
    exact ⟨c.name, .inl rfl⟩
  · split at h
    · rename_i column _
      cases h
      exact ⟨column, .inr rfl⟩
    · rw [hfree] at h
      contradiction

namespace Standard.Wiring

/-- The actions test again whether the stream exists, and never fail for that reason: the validators
have seen to it. -/
theorem code_of_actionFailure (w : Wiring σ) {m : Message} {s : σ} {c : Call σ}
    (hc : c ∈ w.definition.calls m s) {e : Failure} (hfailed : c.actionFailure? = some e) :
    e.reply.code ≠ .streamAlreadyExists ∧ e.reply.code ≠ .streamDoesNotExist := by
  have hreply : c.reply? = none := by
    cases c <;> first | rfl | contradiction
  obtain ⟨branch, route, hmatch, hcall⟩ := Processor.mem_calls_execute_of_reply? hc hreply
  obtain ⟨-, hroute⟩ := Builder.takes_of_match? hmatch
  cases branch with
  | start =>
    obtain ⟨hpassed, hchange⟩ := Route.passed_of_actionFailure (checks_create w.get_set hroute m)
      (action_create w.get_set hroute m) hcall hfailed
    obtain ⟨stream, haddressee, hfree⟩ := Validator.asked_eq_ok_iff.1
      (hpassed _ (List.mem_append_right _ List.mem_cons_self))
    rw [changeOf_of_addressee haddressee] at hchange
    obtain ⟨e', hcreate, rfl⟩ := mapError_eq_error_iff.1 hchange
    obtain ⟨column, rfl | rfl⟩ := Streams.create_eq_error hfree hcreate
    · exact ⟨nofun, nofun⟩
    · exact ⟨nofun, nofun⟩
  | stop =>
    obtain ⟨hpassed, hchange⟩ := Route.passed_of_actionFailure (checks_drop w.get_set hroute m)
      (action_drop w.get_set hroute m) hcall hfailed
    obtain ⟨stream, haddressee, hcontains⟩ := Validator.asked_eq_ok_iff.1
      (hpassed _ (List.mem_append_right _ List.mem_cons_self))
    rw [changeOf_of_addressee haddressee, Streams.drop, hcontains] at hchange
    contradiction

/-- **Rules decide about creations and drops.**  How a message that creates or drops a stream ends,
what is replied and what becomes of the streams is what the rules say and nothing else; and no action
finds that a stream exists already or is missing. -/
theorem definition_decides (w : Wiring σ) (m : Message) (s : σ) :
    (∀ outcome reply? t, Defines m (w.streams s) outcome reply? t ↔
      w.definition.fate m s = .ended (outcome, reply?) ∧
        w.streams (w.definition.handle m s).state = t) ∧
    ∀ c ∈ w.definition.calls m s, ∀ e, c.actionFailure? = some e →
      e.reply.code ≠ .streamAlreadyExists ∧ e.reply.code ≠ .streamDoesNotExist := by
  refine ⟨fun outcome reply? t => ?_, fun c hc e hfailed => w.code_of_actionFailure hc hfailed⟩
  rw [w.follows_definition.ended_iff]
  exact Policy.rules_iff Defines.policy_eq exists_defines

/-- A stream is created by a message in mixed letters; the second time it is taken. -/
theorem definition_decides_mixed_case :
    let w := engine Config.default
    let s := Engine.new Config.default (.still 0)
    let m := (Message.addressed "cReAtE" "orders").carrying [.declaring "id" .integer]
    let after := (w.definition.handle m s).state
    let taken : Refusal := ⟨.streamAlreadyExists, "stream orders already exists"⟩
    Defines m (w.streams s) (.completed true) (some .ok) (w.streams after) ∧
      w.definition.fate m after = .ended (.rejected taken, some ⟨taken.code, some taken.detail⟩) ∧
        w.streams (w.definition.handle m after).state = w.streams after := by
  intro w s m after taken
  have hcreated : w.definition.fate m s = .ended (.completed true, some .ok) := by decide +kernel
  have hname : m.Names (some Operation.create) := by decide
  have hfound : (w.streams after).contains "orders" = true := by decide +kernel
  have hadmitted : (w.streams after).admits "orders" m.operationOrEmpty = true := by decide +kernel
  have hreaches : Reaches m (w.streams after) "orders" :=
    ⟨rfl, by decide, admits_iff.1 hadmitted⟩
  obtain ⟨hfirst, -⟩ := w.definition_decides m s
  obtain ⟨hsecond, -⟩ := w.definition_decides m after
  exact ⟨(hfirst _ _ _).2 ⟨hcreated, rfl⟩,
    (hsecond _ _ _).1 (.notCreated hname (.taken hreaches hfound))⟩

end Standard.Wiring

end StreamControl
