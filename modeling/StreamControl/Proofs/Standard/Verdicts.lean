import StreamControl.Dispatch.Standard
import StreamControl.Proofs.Dispatch.Decisions
import StreamControl.Proofs.Streams.Histories

/-!
# What the standard processors decide

Each command of the standard processors has a verdict: a function that says, for a message and the
streams, with which failure the message ends or what becomes of the streams.  The tests are made in a
fixed order, and the first that fails decides.  `execute_create`, `execute_drop` and `execute_insert`
tie the branches of the processors to the verdicts, over any state that holds the streams.
`Standard.Obeys` sums up what a message can do to the streams at all.
-/

namespace StreamControl

variable {σ : Type} {part : Part σ Streams}

/-! ## Verdicts -/

namespace Standard

/-- The operation is not one that the stream admits. -/
def notAdmitted (m : Message) (stream : String) : Failure :=
  .invalid .streamOperationNotAllowed
    ("operation " ++ m.operationOrEmpty ++ " is not allowed on stream " ++ stream)

/-- There is no such stream. -/
def missing (stream : String) : Failure :=
  .invalid .streamDoesNotExist ("stream " ++ stream ++ " does not exist")

/-- There is such a stream already. -/
def taken (stream : String) : Failure :=
  .invalid .streamAlreadyExists ("stream " ++ stream ++ " already exists")

/-- The stream is one of the engine's own. -/
def notUserDefined (stream : String) : Failure :=
  .invalid .streamIsNotUserDefined ("stream " ++ stream ++ " is not user defined")

/-- The verdict on a message whose stream is to be changed: it must name a stream that admits the
operation. -/
def verdictOn (m : Message) (decide : (stream : String) → Streams → Except Failure Streams)
    (s : Streams) : Except Failure Streams :=
  match m.stream? with
  | none => .error Validator.noStream
  | some stream =>
    if s.admits stream m.operationOrEmpty then decide stream s else .error (notAdmitted m stream)

/-- The change that an action makes to the stream of the message, in the words of a failure. -/
def changeOf (m : Message) (change : (stream : String) → Streams → Except StreamError Streams)
    (s : Streams) : Except Failure Streams :=
  Validator.addressee m >>= fun stream => (change stream s).mapError .ofStreamError

/-- The verdict on a message that is to create its stream. -/
def createVerdict (m : Message) : Streams → Except Failure Streams :=
  verdictOn m fun stream s =>
    if s.contains stream then .error (taken stream)
    else (s.create stream m.columns).mapError .ofStreamError

/-- The verdict on a message that is to drop its stream. -/
def dropVerdict (m : Message) : Streams → Except Failure Streams :=
  verdictOn m fun stream s =>
    if s.contains stream then
      if s.isUserDefined stream then (s.drop stream).mapError .ofStreamError
      else .error (notUserDefined stream)
    else .error (missing stream)

/-- The verdict on a message that is to send an event to its stream. -/
def insertVerdict (m : Message) : Streams → Except Failure Streams :=
  verdictOn m fun stream s =>
    if s.contains stream then (s.send stream m.columns).mapError .ofStreamError
    else .error (missing stream)

end Standard

/-! ## The parts of the branches -/

section Parts

variable (hpart : ∀ s t, part.get (part.set s t) = t)

include hpart

theorem Streams.decides_commit (change : Streams → Except StreamError Streams)
    (event : List Event) : (Step.on part (commit change event)).Decides part.get () change := by
  intro s
  rcases commit_cases hpart change event s with ⟨e, he, hresult, hstate⟩ | ⟨t, ht, hresult, hstate⟩
  · rw [he]
    exact ⟨hresult, hstate⟩
  · rw [ht]
    exact ⟨hresult, hstate⟩

/-- A question to the streams leaves them as they are. -/
theorem Streams.reads_view {α : Type} (answer : Streams → α) :
    (Step.on part (.view answer)).Reads part.get answer := by
  intro s
  exact ⟨rfl, hpart _ _⟩

/-- A validator that asks the streams about the stream of a message. -/
theorem Validator.reads_asking_streams (name : String) (answer : String → Message → Streams → Bool)
    (wanted : Bool) (failure : String → Message → Failure) (m : Message) :
    ((asking name (fun stream m => .on part (.view (answer stream m))) wanted failure).check m).Reads
      part.get (asked (fun s stream => answer stream m s) wanted (failure · m) m) :=
  reads_asking fun stream => Streams.reads_view hpart (answer stream m)

omit hpart

theorem Validator.reads_namesStream {τ : Type} {view : σ → τ} (m : Message) :
    ((namesStream : Validator σ).check m).Reads view fun _ => (addressee m).map fun _ => () :=
  Step.reads_pure _

theorem Standard.decides_streamAction
    {act : (stream : String) → Message → Step σ (Except StreamError Unit)}
    {event : (stream : String) → Message → Event} {acknowledge : Bool} {m : Message}
    {change : (stream : String) → Streams → Except StreamError Streams}
    (hact : ∀ stream, (act stream m).Decides part.get () (change stream)) :
    (streamAction act event acknowledge m).Decides part.get acknowledge (changeOf m change) := by
  unfold streamAction changeOf
  rcases Validator.addressee m with e | stream
  · exact Step.decides_error e _
  · refine Step.decides_conclude (hact stream) ?_ fun e => Step.reads_pure _
    exact Step.reads_bind (Step.reads_emit _) fun _ => Step.reads_pure _

end Parts

/-! ## The branches -/

namespace Standard

theorem addressee_of_none {m : Message} (h : m.stream? = none) :
    Validator.addressee m = .error Validator.noStream := by
  rw [Validator.addressee, h]

theorem addressee_of_some {m : Message} {stream : String} (h : m.stream? = some stream) :
    Validator.addressee m = .ok stream := by
  rw [Validator.addressee, h]

/-- What the standing validators say: the message must name a stream that admits the operation. -/
def standingRules (m : Message) : List (Streams → Except Failure Unit) :=
  [fun _ => (Validator.addressee m).map fun _ => (),
    Validator.asked (fun s stream => s.admits stream m.operationOrEmpty) true (notAdmitted m) m]

theorem changeOf_of_addressee {m : Message} {stream : String}
    (h : Validator.addressee m = .ok stream)
    (change : (stream : String) → Streams → Except StreamError Streams) (s : Streams) :
    changeOf m change s = (change stream s).mapError .ofStreamError := by
  rw [changeOf, h]
  rfl

/-- A branch begins with the standing validators; what else it asks comes after them. -/
theorem checks_branch (hpart : ∀ s t, part.get (part.set s t) = t) {route : Route σ}
    {extras : List (Validator σ)} {m : Message} {rules : List (Streams → Except Failure Unit)}
    (hchain : route.chain.validators =
      .namesStream :: .admitted (Streams.service part) :: extras)
    (hextras : List.Forall₂ (fun v rule => (v.check m).Reads part.get rule) extras rules) :
    List.Forall₂ (fun v rule => (v.check m).Reads part.get rule) route.chain.validators
      (standingRules m ++ rules) := by
  have hadmitted := Validator.reads_asking_streams hpart "stream_allowed"
    (fun stream m s => s.admits stream m.operationOrEmpty) true
    (fun stream m => notAdmitted m stream) m
  rw [hchain]
  exact .cons (Validator.reads_namesStream m) (.cons hadmitted hextras)

/-- Behind the standing validators, what else is asked and then the action decide about the stream of
the message. -/
theorem decides_branch {route : Route σ} {acknowledge : Bool} {m : Message}
    {rules : List (Streams → Except Failure Unit)}
    {change : (stream : String) → Streams → Except StreamError Streams}
    {decide : (stream : String) → Streams → Except Failure Streams}
    (hchecks : List.Forall₂ (fun v rule => (v.check m).Reads part.get rule)
      route.chain.validators (standingRules m ++ rules))
    (haction : (route.action m).Decides part.get acknowledge (changeOf m change))
    (hdecide : ∀ stream, m.stream? = some stream → ∀ s,
      (Chain.ruling rules s >>= fun _ => (change stream s).mapError .ofStreamError) =
        decide stream s) :
    (route.execute m).Decides part.get acknowledge (verdictOn m decide) := by
  have hdecides := Route.decides_execute hchecks haction
  refine cast (congrArg _ ?_) hdecides
  funext s
  unfold verdictOn changeOf
  -- a message without a stream fails at once; else every test is about the stream
  rcases hstream : m.stream? with _ | stream
  · rw [addressee_of_none hstream, standingRules, addressee_of_none hstream]
    rfl
  · have haddressee := addressee_of_some hstream
    dsimp only
    rw [← hdecide stream hstream s, standingRules, List.cons_append, List.cons_append,
      List.nil_append, Chain.ruling, haddressee]
    refine (Chain.ruling_asked_bind haddressee _ _ _ rules s _).trans ?_
    by_cases hadmits : s.admits stream m.operationOrEmpty = true
    · simp only [hadmits]
      rfl
    · simp only [hadmits]
      rfl

section Branches

variable (hpart : ∀ s t, part.get (part.set s t) = t) {sink : Sink σ} {config : Config}
  {store : StoreService σ} {route : Route σ}

include hpart

/-! ### Creating a stream -/

/-- A stream that is created must not exist yet. -/
theorem checks_create
    (hroute : (definition (Streams.service part) sink).route? .start = some route) (m : Message) :
    List.Forall₂ (fun v rule => (v.check m).Reads part.get rule) route.chain.validators
      (standingRules m ++ [Validator.asked Streams.contains false taken m]) := by
  obtain rfl := Option.some.inj hroute
  have hnames : ["stream_name_not_null", "stream_allowed", "stream_not_exists"].Nodup := by decide
  have hunused := Validator.reads_asking_streams hpart "stream_not_exists"
    (fun stream _ s => s.contains stream) false (fun stream _ => taken stream) m
  exact checks_branch hpart (Chain.validators_ofList_of_nodup hnames) (.cons hunused .nil)

theorem action_create
    (hroute : (definition (Streams.service part) sink).route? .start = some route) (m : Message) :
    (route.action m).Decides part.get true (changeOf m fun stream s => s.create stream m.columns) := by
  obtain rfl := Option.some.inj hroute
  exact decides_streamAction fun stream => Streams.decides_commit hpart (·.create stream m.columns)
    [.streamCreated stream m.columns.length]

theorem execute_create
    (hroute : (definition (Streams.service part) sink).route? .start = some route) (m : Message) :
    (route.execute m).Decides part.get true (createVerdict m) := by
  refine decides_branch (checks_create hpart hroute m) (action_create hpart hroute m)
    fun stream hstream s => ?_
  rw [Chain.ruling_asked_bind (addressee_of_some hstream)]
  by_cases hcontains : s.contains stream = true
  · simp only [hcontains]
    rfl
  · simp only [hcontains]
    rfl

/-! ### Dropping a stream -/

/-- A stream that is dropped must exist, and a user must have created it. -/
theorem checks_drop
    (hroute : (definition (Streams.service part) sink).route? .stop = some route) (m : Message) :
    List.Forall₂ (fun v rule => (v.check m).Reads part.get rule) route.chain.validators
      (standingRules m ++ [Validator.asked Streams.contains true missing m,
        Validator.asked Streams.isUserDefined true notUserDefined m]) := by
  obtain rfl := Option.some.inj hroute
  have hnames : ["stream_name_not_null", "stream_allowed", "stream_exists",
      "stream_is_user_defined"].Nodup := by decide
  have hexisting := Validator.reads_asking_streams hpart "stream_exists"
    (fun stream _ s => s.contains stream) true (fun stream _ => missing stream) m
  have huser := Validator.reads_asking_streams hpart "stream_is_user_defined"
    (fun stream _ s => s.isUserDefined stream) true (fun stream _ => notUserDefined stream) m
  exact checks_branch hpart (Chain.validators_ofList_of_nodup hnames)
    (.cons hexisting (.cons huser .nil))

theorem action_drop
    (hroute : (definition (Streams.service part) sink).route? .stop = some route) (m : Message) :
    (route.action m).Decides part.get true (changeOf m fun stream s => s.drop stream) := by
  obtain rfl := Option.some.inj hroute
  exact decides_streamAction fun stream => Streams.decides_commit hpart (·.drop stream)
    [.streamRemoved stream]

theorem execute_drop
    (hroute : (definition (Streams.service part) sink).route? .stop = some route) (m : Message) :
    (route.execute m).Decides part.get true (dropVerdict m) := by
  refine decides_branch (checks_drop hpart hroute m) (action_drop hpart hroute m)
    fun stream hstream s => ?_
  have haddressee := addressee_of_some hstream
  rw [Chain.ruling_asked_bind haddressee, Chain.ruling_asked_bind haddressee]
  -- the validators ask in the order of the tests in the verdict
  by_cases hcontains : s.contains stream = true
  · by_cases hown : s.isUserDefined stream = true
    · simp only [hcontains, hown]
      rfl
    · simp only [hcontains, hown]
      rfl
  · simp only [hcontains]
    rfl

/-! ### Sending an event -/

/-- The stream of an event must exist. -/
theorem checks_insert
    (hroute : (insert (Streams.service part) config store).route? .start = some route)
    (m : Message) :
    List.Forall₂ (fun v rule => (v.check m).Reads part.get rule) route.chain.validators
      (standingRules m ++ [Validator.asked Streams.contains true missing m]) := by
  obtain rfl := Option.some.inj hroute
  have hnames : ["stream_name_not_null", "stream_allowed", "stream_exists"].Nodup := by decide
  have hexisting := Validator.reads_asking_streams hpart "stream_exists"
    (fun stream _ s => s.contains stream) true (fun stream _ => missing stream) m
  exact checks_branch hpart (Chain.validators_ofList_of_nodup hnames) (.cons hexisting .nil)

theorem action_insert
    (hroute : (insert (Streams.service part) config store).route? .start = some route)
    (m : Message) :
    (route.action m).Decides part.get false (changeOf m fun stream s => s.send stream m.columns) := by
  obtain rfl := Option.some.inj hroute
  exact decides_streamAction fun stream => Streams.decides_commit hpart (·.send stream m.columns) []

theorem execute_insert
    (hroute : (insert (Streams.service part) config store).route? .start = some route)
    (m : Message) : (route.execute m).Decides part.get false (insertVerdict m) := by
  refine decides_branch (checks_insert hpart hroute m) (action_insert hpart hroute m)
    fun stream hstream s => ?_
  rw [Chain.ruling_asked_bind (addressee_of_some hstream)]
  by_cases hcontains : s.contains stream = true
  · simp only [hcontains]
    rfl
  · simp only [hcontains]
    rfl

end Branches

/-! ## What a message can do -/

theorem verdictOn_eq_ok_iff {m : Message} {decide : String → Streams → Except Failure Streams}
    {s t : Streams} : verdictOn m decide s = .ok t ↔
      ∃ stream, m.stream? = some stream ∧ s.admits stream m.operationOrEmpty = true ∧
        decide stream s = .ok t := by
  unfold verdictOn
  rcases m.stream? with _ | stream
  · simp
  · by_cases hadmits : s.admits stream m.operationOrEmpty = true
    · simp [hadmits]
    · simp [hadmits]

theorem mapError_eq_ok_iff {α ε δ : Type} {x : Except ε α} {pass : ε → δ} {a : α} :
    x.mapError pass = .ok a ↔ x = .ok a := by
  rcases x with e | b
  · simp [Except.mapError]
  · simp [Except.mapError]

theorem mapError_eq_error_iff {α ε δ : Type} {x : Except ε α} {pass : ε → δ} {d : δ} :
    x.mapError pass = .error d ↔ ∃ e, x = .error e ∧ pass e = d := by
  rcases x with e | b
  · simp [Except.mapError]
  · simp [Except.mapError]

/-- What a message can make of the streams: nothing, or the one change that its operation asks for, of
a stream that admits the operation. -/
inductive Obeys (m : Message) (s : Streams) : Streams → Prop
  | ignored : Obeys m s s
  | created {stream : String} {t : Streams} :
      m.Names (some Operation.create) → m.stream? = some stream →
      s.admits stream m.operationOrEmpty = true → s.contains stream = false →
      s.create stream m.columns = .ok t → Obeys m s t
  | dropped {stream : String} {t : Streams} :
      m.Names (some Operation.drop) → m.stream? = some stream →
      s.admits stream m.operationOrEmpty = true → s.isUserDefined stream = true →
      s.drop stream = .ok t → Obeys m s t
  | inserted {stream : String} {t : Streams} :
      m.Names (some Operation.insert) → m.stream? = some stream →
      s.admits stream m.operationOrEmpty = true → s.send stream m.columns = .ok t → Obeys m s t

theorem obeys_createVerdict {m : Message} {s t : Streams} (hnames : m.Names (some Operation.create))
    (h : createVerdict m s = .ok t) : Obeys m s t := by
  obtain ⟨stream, hstream, hadmits, hdecided⟩ := verdictOn_eq_ok_iff.1 h
  by_cases hcontains : s.contains stream = true
  · rw [if_pos hcontains] at hdecided
    contradiction
  · rw [if_neg hcontains] at hdecided
    exact .created hnames hstream hadmits (eq_false_of_ne_true hcontains)
      (mapError_eq_ok_iff.1 hdecided)

theorem obeys_dropVerdict {m : Message} {s t : Streams} (hnames : m.Names (some Operation.drop))
    (h : dropVerdict m s = .ok t) : Obeys m s t := by
  obtain ⟨stream, hstream, hadmits, hdecided⟩ := verdictOn_eq_ok_iff.1 h
  by_cases hcontains : s.contains stream = true
  · by_cases hown : s.isUserDefined stream = true
    · rw [if_pos hcontains, if_pos hown] at hdecided
      exact .dropped hnames hstream hadmits hown (mapError_eq_ok_iff.1 hdecided)
    · rw [if_pos hcontains, if_neg hown] at hdecided
      contradiction
  · rw [if_neg hcontains] at hdecided
    contradiction

theorem obeys_insertVerdict {m : Message} {s t : Streams} (hnames : m.Names (some Operation.insert))
    (h : insertVerdict m s = .ok t) : Obeys m s t := by
  obtain ⟨stream, hstream, hadmits, hdecided⟩ := verdictOn_eq_ok_iff.1 h
  by_cases hcontains : s.contains stream = true
  · rw [if_pos hcontains] at hdecided
    exact .inserted hnames hstream hadmits (mapError_eq_ok_iff.1 hdecided)
  · rw [if_neg hcontains] at hdecided
    contradiction

/-- A branch that decides by a verdict obeys if the verdict does. -/
theorem obeys_of_decides {m : Message} {x : Step σ (Except Failure Bool)} {acknowledge : Bool}
    {verdict : Streams → Except Failure Streams} (hx : x.Decides part.get acknowledge verdict)
    (hverdict : ∀ {s t}, verdict s = .ok t → Obeys m s t) (s : σ) :
    Obeys m (part.get s) (part.get (x s).state) := by
  have hdecides := hx s
  rcases hgave : verdict (part.get s) with e | t
  · rw [hgave] at hdecides
    rw [hdecides.2]
    exact .ignored
  · rw [hgave] at hdecides
    rw [hdecides.2]
    exact hverdict hgave

/-- The two standard processors over the same streams. -/
inductive Serves (part : Part σ Streams) : Processor σ → Prop
  | definition (sink : Sink σ) : Serves part (definition (Streams.service part) sink)
  | insert (config : Config) (store : StoreService σ) :
      Serves part (insert (Streams.service part) config store)

/-- A processor whose sink leaves the streams alone only does to them what its messages ask for. -/
theorem obeys_handle (hpart : ∀ s t, part.get (part.set s t) = t) {p : Processor σ}
    (hserves : Serves part p) (hsink : ∀ m reply, (p.sink m reply).Leaves part.get) (m : Message)
    (s : σ) : Obeys m (part.get s) (part.get (p.handle m s).state) := by
  -- the message was not for the processor, or the view is as its route left it
  rcases Processor.handle_view hsink m s with ⟨-, hkept⟩ | ⟨branch, route, hmatch, hview⟩
  · rw [hkept]
    exact .ignored
  · rw [hview]
    cases hserves with
    | definition sink =>
      obtain ⟨htakes, hroute⟩ := Builder.takes_of_match? hmatch
      cases branch with
      | start =>
        exact obeys_of_decides (execute_create hpart hroute m) (obeys_createVerdict htakes) s
      | stop => exact obeys_of_decides (execute_drop hpart hroute m) (obeys_dropVerdict htakes.1) s
    | insert config store =>
      obtain ⟨htakes, hroute⟩ := Builder.takes_of_match? hmatch
      cases branch with
      | start =>
        exact obeys_of_decides (execute_insert hpart hroute m) (obeys_insertVerdict htakes) s
      | stop => cases hroute

end Standard

end StreamControl
