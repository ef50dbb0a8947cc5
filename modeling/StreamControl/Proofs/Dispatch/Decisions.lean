import StreamControl.Proofs.Dispatch.Guard
import StreamControl.Proofs.Dispatch.Invariants

/-!
# Decisions about a view of the state

Validators and actions that work on one part of the state alone can be described without the
dispatcher, by functions of that part.  A step that only looks answers by such a function
(`Step.Reads`); one that changes the part and may fail is told by a function that decides whether it
fails, and what becomes of the part if it does not (`Step.Decides`).  Both survive putting steps
together, so a chain reads as its validators do, one after the other, and a branch decides as its
chain and then its action (`Route.decides_execute`).
-/

namespace StreamControl

variable {σ τ α β ε δ : Type} {view : σ → τ}

/-! ## Steps -/

namespace Step

/-- A step gives what `answer` says about a view of the state, and leaves the view as it is. -/
def Reads (view : σ → τ) (x : Step σ α) (answer : τ → α) : Prop :=
  ∀ s, (x s).result = answer (view s) ∧ view (x s).state = view s

/-- A step that can fail does to a view of the state what `verdict` says: it fails and leaves the view
as it is, or it gives `a` and leaves the view that was decided. -/
def Decides (view : σ → τ) (x : Step σ (Except ε α)) (a : α) (verdict : τ → Except ε τ) : Prop :=
  ∀ s, match verdict (view s) with
    | .error e => (x s).result = .error e ∧ view (x s).state = view s
    | .ok t => (x s).result = .ok a ∧ view (x s).state = t

theorem reads_pure (a : α) : Reads view (pure a : Step σ α) fun _ => a := by
  intro s
  exact ⟨rfl, rfl⟩

theorem reads_emit (e : Event) : Reads view (emit e : Step σ Unit) fun _ => () := by
  intro s
  exact ⟨rfl, rfl⟩

/-- Of two steps that only look, the second sees what the first saw. -/
theorem reads_bind {x : Step σ α} {answer : τ → α} {f : α → Step σ β} {g : α → τ → β}
    (hx : x.Reads view answer) (hf : ∀ a, (f a).Reads view (g a)) :
    (x >>= f).Reads view fun t => g (answer t) t := by
  intro s
  obtain ⟨hresult, hview⟩ := hx s
  obtain ⟨hresult', hview'⟩ := hf (answer (view s)) (x s).state
  rw [hview] at hresult' hview'
  rw [bind_apply, hresult]
  exact ⟨hresult', hview'⟩

/-- What is decided after a look is decided about what was seen. -/
theorem decides_bind {x : Step σ α} {answer : τ → α} {f : α → Step σ (Except ε β)} {b : β}
    {g : α → τ → Except ε τ} (hx : x.Reads view answer)
    (hf : ∀ a, (f a).Decides view b (g a)) :
    (x >>= f).Decides view b fun t => g (answer t) t := by
  intro s
  obtain ⟨hresult, hview⟩ := hx s
  have hdecides := hf (answer (view s)) (x s).state
  rw [hview] at hdecides
  rw [bind_apply, hresult]
  exact hdecides

theorem decides_error (e : ε) (a : α) :
    Decides view (pure (.error e) : Step σ (Except ε α)) a fun _ => .error e := by
  intro s
  exact ⟨rfl, rfl⟩

/-- A decision stands when its failure is passed on in other words and its success is only
reported. -/
theorem decides_conclude {x : Step σ (Except ε α)} {a : α} {verdict : τ → Except ε τ}
    {f : Except ε α → Step σ (Except δ β)} {b : β} {pass : ε → δ} (hx : x.Decides view a verdict)
    (hok : (f (.ok a)).Reads view fun _ => .ok b)
    (herror : ∀ e, (f (.error e)).Reads view fun _ => .error (pass e)) :
    (x >>= f).Decides view b fun t => (verdict t).mapError pass := by
  -- in either case the view is that after the first step, for the second leaves it alone
  intro s
  have hdecides := hx s
  rcases hverdict : verdict (view s) with e | t
  · rw [hverdict] at hdecides
    obtain ⟨hresult, hview⟩ := hdecides
    obtain ⟨hgave, hkept⟩ := herror e (x s).state
    dsimp only
    rw [bind_apply, hresult, hverdict]
    exact And.intro hgave (hkept.trans hview)
  · rw [hverdict] at hdecides
    obtain ⟨hresult, hview⟩ := hdecides
    obtain ⟨hgave, hkept⟩ := hok (x s).state
    dsimp only
    rw [bind_apply, hresult, hverdict]
    exact And.intro hgave (hkept.trans hview)

end Step

/-! ## Validators and branches -/

/-- What validators that only look say one after the other: the first failure, if there is one. -/
def Chain.ruling : List (τ → Except Failure Unit) → τ → Except Failure Unit
  | [], _ => .ok ()
  | rule :: rules, t => do
    rule t
    ruling rules t

theorem Chain.ruling_eq_ok_iff {rules : List (τ → Except Failure Unit)} {t : τ} :
    ruling rules t = .ok () ↔ ∀ rule ∈ rules, rule t = .ok () := by
  induction rules with
  | nil => simp [ruling]
  | cons rule rules ih =>
    rw [ruling, List.forall_mem_cons, ← ih]
    rcases rule t with e | ⟨⟩
    · exact ⟨nofun, nofun⟩
    · exact ⟨fun h => ⟨rfl, h⟩, And.right⟩

theorem Chain.reads_runAll {m : Message} {vs : List (Validator σ)}
    {rules : List (τ → Except Failure Unit)}
    (h : List.Forall₂ (fun v rule => (v.check m).Reads view rule) vs rules) :
    (runAll m vs).Reads view (ruling rules) := by
  induction h with
  | nil => exact Step.reads_pure _
  | @cons v rule vs rules hrule _ ih =>
    rw [runAll_cons]
    -- a validator that fails ends the chain, and whether that is reported or not the view stays
    refine Step.reads_bind (g := fun given t => given >>= fun _ => ruling rules t) hrule ?_
    rintro (e | ⟨⟩)
    · cases e with
      | refused f => exact Step.reads_bind (Step.reads_emit _) fun _ => Step.reads_pure _
      | internal e => exact Step.reads_pure _
    · exact ih

/-- A branch decides as its validators do, one after the other, and then as its action. -/
theorem Route.decides_execute {r : Route σ} {m : Message} {rules : List (τ → Except Failure Unit)}
    {acknowledge : Bool} {change : τ → Except Failure τ}
    (hchecks : List.Forall₂ (fun v rule => (v.check m).Reads view rule) r.chain.validators rules)
    (haction : (r.action m).Decides view acknowledge change) :
    (r.execute m).Decides view acknowledge fun t => Chain.ruling rules t >>= fun _ => change t := by
  rw [execute_eq_bind]
  refine Step.decides_bind (g := fun given t => given >>= fun _ => change t)
    (Chain.reads_runAll hchecks) ?_
  rintro (e | ⟨⟩)
  · exact Step.decides_error e _
  · exact haction

/-- What a validator says that asks about the stream of a message. -/
def Validator.asked (answer : τ → String → Bool) (wanted : Bool) (failure : String → Failure)
    (m : Message) (t : τ) : Except Failure Unit :=
  match addressee m with
  | .error e => .error e
  | .ok stream => if answer t stream == wanted then .ok () else .error (failure stream)

theorem Validator.asked_eq_ok_iff {answer : τ → String → Bool} {wanted : Bool}
    {failure : String → Failure} {m : Message} {t : τ} :
    asked answer wanted failure m t = .ok () ↔
      ∃ stream, addressee m = .ok stream ∧ answer t stream = wanted := by
  rw [asked]
  rcases addressee m with e | stream
  · simp
  · simp

theorem Validator.reads_asking {name : String} {ask : String → Message → Step σ Bool}
    {wanted : Bool} {failure : String → Message → Failure} {answer : τ → String → Bool} {m : Message}
    (hask : ∀ stream, (ask stream m).Reads view fun t => answer t stream) :
    ((asking name ask wanted failure).check m).Reads view
      (asked answer wanted (failure · m) m) := by
  unfold asking asked
  dsimp only
  -- without a stream there is nobody to ask
  rcases addressee m with e | stream
  · exact Step.reads_pure _
  · refine Step.reads_bind (g := fun answered _ =>
      if answered == wanted then Except.ok () else .error (failure stream m)) (hask stream) ?_
    intro answered
    by_cases hwanted : (answered == wanted) = true
    · simp only [hwanted, if_true]
      exact Step.reads_pure _
    · simp only [hwanted]
      exact Step.reads_pure _

/-- Of validators that ask about the stream of a message, the first that does not get the answer it
wants decides. -/
theorem Chain.ruling_asked_bind {m : Message} {stream : String}
    (haddressee : Validator.addressee m = .ok stream) (answer : τ → String → Bool) (wanted : Bool)
    (failure : String → Failure) (rules : List (τ → Except Failure Unit)) (t : τ)
    (f : Unit → Except Failure α) :
    (ruling (Validator.asked answer wanted failure m :: rules) t >>= f) =
      if answer t stream == wanted then ruling rules t >>= f else .error (failure stream) := by
  rw [ruling, Validator.asked, haddressee]
  by_cases hwanted : (answer t stream == wanted) = true
  · simp only [hwanted, if_true]
    rfl
  · simp only [hwanted]
    rfl

/-! ## Messages -/

/-- A chain whose names are all different runs the validators it was given. -/
theorem Chain.validators_ofList_of_nodup {vs : List (Validator σ)}
    (h : (vs.map (·.name)).Nodup) : (ofList vs).validators = vs := by
  rw [validators_ofList]
  induction vs with
  | nil => rfl
  | cons v vs ih =>
    obtain ⟨hv, hvs⟩ := List.nodup_cons.1 h
    have hkept : vs.filter (fun w => w.name ≠ v.name) = vs := by
      refine List.filter_eq_self.2 fun w hw => decide_eq_true fun hname => hv ?_
      exact List.mem_map.2 ⟨w, hw, hname⟩
    rw [firstOfEachName, ih hvs, hkept]

/-- A message that is matched takes the branch, and the route is that of the branch. -/
theorem Builder.takes_of_match? {b : Builder σ} {m : Message} {branch : Branch} {route : Route σ}
    (h : b.processor.match? m = some (branch, route)) :
    b.Takes m branch ∧ b.processor.route? branch = some route := by
  obtain ⟨taken, hbranch, hroute⟩ := Option.bind_eq_some_iff.1 h
  obtain ⟨found, hfound, heq⟩ := Option.map_eq_some_iff.1 hroute
  cases heq
  exact ⟨branch?_processor_iff.1 hbranch, hfound⟩

/-- With a sink that leaves the view alone, a message leaves it as its branch does, or as it was if it
takes none. -/
theorem Processor.handle_view {p : Processor σ} (hsink : ∀ m reply, (p.sink m reply).Leaves view)
    (m : Message) (s : σ) :
    (p.match? m = none ∧ view (p.handle m s).state = view s) ∨
      ∃ branch route, p.match? m = some (branch, route) ∧
        view (p.handle m s).state = view (route.execute m s).state := by
  rcases hmatch : p.match? m with _ | ⟨branch, route⟩
  · exact .inl ⟨rfl, by rw [(handle_unmatched hmatch s).2.1]⟩
  · refine .inr ⟨branch, route, rfl, ?_⟩
    rcases hreply : conclude (route.execute m s).result with ⟨outcome, _ | reply⟩
    · rw [(handle_unanswered hmatch hreply).2.1]
    · rw [(handle_answered hmatch hreply).1]
      exact hsink m reply _

end StreamControl
