import StreamControl.Proofs.Standard.Wiring

/-!
# Messages without effect

A message that every processor dropped, or that one rejected, is harmless (`Entry.Harmless`): without
it, and without any number of others like it, the batch ends with the same streams, and all other
messages meet the same fates (`Standard.Wiring.harmless_messages_inert`).

The two runs are over batches of different lengths.  `Thins` relates the accounts of both, and the
induction follows it through the passes of both processors at once.
-/

namespace StreamControl

variable {σ τ : Type}

/-! ## Striking messages out -/

/-- A list without some of its harmless members. -/
inductive Thins {α : Type} (harmless : α → Prop) : List α → List α → Prop
  | nil : Thins harmless [] []
  | kept (a : α) {as bs : List α} : Thins harmless as bs → Thins harmless (a :: as) (a :: bs)
  | struck {a : α} {as bs : List α} :
      harmless a → Thins harmless as bs → Thins harmless (a :: as) bs

/-- Every processor dropped the message, or one rejected it. -/
def Entry.Harmless (e : Entry) : Prop :=
  (∀ fate ∈ e.fates, fate.result = .ok .dropped) ∨
    ∃ fate ∈ e.fates, ∃ refusal, fate.result = .ok (.rejected refusal)

/-- A message that was dropped by both of two processors, or rejected by one, was dropped or rejected
by each, if no message is for both. -/
theorem Entry.Harmless.answers {q q' : Policy τ} (hapart : ∀ m, q m = none ∨ q' m = none)
    {m : Message} {t t' : τ}
    (h : (Entry.paired m (q.answer m t, q'.answer m t')).Harmless) :
    ((q.answer m t).1 = .dropped ∨ ∃ f, (q.answer m t).1 = .rejected f) ∧
      ((q'.answer m t').1 = .dropped ∨ ∃ f, (q'.answer m t').1 = .rejected f) := by
  rcases h with hdropped | ⟨fate, hfate, refusal, hrejected⟩
  · have hfirst := hdropped (.ended (q.answer m t)) List.mem_cons_self
    have hsecond := hdropped (.ended (q'.answer m t')) (List.mem_cons_of_mem _ List.mem_cons_self)
    exact ⟨.inl (Except.ok.inj hfirst), .inl (Except.ok.inj hsecond)⟩
  · -- the processor that rejected it answers to it, so the other one does not
    have hanswered : ∀ {p : Policy τ} {u : τ},
        (p.answer m u).1 = .rejected refusal → p m ≠ none := by
      intro p u hrefused hnone
      rw [Policy.answer_of_none hnone] at hrefused
      contradiction
    simp only [Entry.paired, List.mem_cons, List.not_mem_nil, or_false] at hfate
    rcases hfate with rfl | rfl
    · have hfirst := Except.ok.inj hrejected
      have hnone := (hapart m).resolve_left (hanswered hfirst)
      exact ⟨.inr ⟨refusal, hfirst⟩, .inl (by rw [Policy.answer_of_none hnone])⟩
    · have hsecond := Except.ok.inj hrejected
      have hnone := (hapart m).resolve_right (hanswered hsecond)
      exact ⟨.inl (by rw [Policy.answer_of_none hnone]), .inr ⟨refusal, hsecond⟩⟩

/-- Two passes over a batch without some of its harmless messages go as they did with them. -/
theorem Policy.entries_of_thins {q q' : Policy τ} (hapart : ∀ m, q m = none ∨ q' m = none)
    {batch : List Message} {t t' : τ} {rest : List Entry}
    (h : Thins Entry.Harmless (q.entries q' batch t t') rest) :
    q.entries q' (rest.map (·.message)) t t' = rest ∧
      q.afterAll (rest.map (·.message)) t = q.afterAll batch t ∧
      q'.afterAll (rest.map (·.message)) t' = q'.afterAll batch t' := by
  induction batch generalizing t t' rest with
  | nil =>
    cases h
    exact ⟨rfl, rfl, rfl⟩
  | cons m ms ih =>
    rw [entries_cons] at h
    cases h with
    | kept entry hrest =>
      obtain ⟨hentries, hafter, hafter'⟩ := ih hrest
      refine ⟨?_, hafter, hafter'⟩
      rw [List.map_cons, entries_cons]
      exact congrArg _ hentries
    -- a message that was struck had left both views as they were
    | struck hharmless hrest =>
      obtain ⟨hanswer, hanswer'⟩ := hharmless.answers hapart
      rw [after_of_harmless hanswer, after_of_harmless hanswer'] at hrest
      rw [afterAll_cons, afterAll_cons, after_of_harmless hanswer, after_of_harmless hanswer']
      exact ih hrest

/-! ## Main result -/

namespace Standard

/-- No message is for both of the standard processors. -/
theorem policies_apart (m : Message) : definitionPolicy m = none ∨ insertPolicy m = none := by
  by_cases hinsert : IsInsert m
  · left
    exact definitionPolicy_eq_none fun hdefinition => hdefinition.not_isInsert hinsert
  · right
    exact insertPolicy_eq_none hinsert

/-- **Messages that are dropped or rejected cannot influence their neighbours.**  Strike any of them
out of a batch: every other message still meets the same fate at each processor, down to the reply,
and the streams are the same in the end. -/
theorem Wiring.harmless_messages_inert (w : Wiring σ) (s : σ) (batch : List Message)
    {rest : List Entry} (h : Thins Entry.Harmless (w.registry.account batch s) rest) :
    w.registry.account (rest.map (·.message)) s = rest ∧
      w.streams (w.registry.dispatch (rest.map (·.message)) s).state =
        w.streams (w.registry.dispatch batch s).state := by
  rw [account_eq] at h
  -- the first pass ends alike, so the second one begins alike
  obtain ⟨hentries, hdefined, hinserted⟩ := Policy.entries_of_thins policies_apart h
  constructor
  · rw [account_eq, hdefined]
    exact hentries
  · rw [(w.dispatch_eq _ s).2, (w.dispatch_eq batch s).2, hdefined]
    exact hinserted

/-- A stream is created twice over and a message is for no processor: without the second creation and
the stray message, the stream still gets its event and replies are as before. -/
theorem Wiring.harmless_messages_inert_twice :
    let w := Wiring.engine Config.default
    let s := Engine.new Config.default (.still 0)
    let create := Message.addressed "CREATE" "orders"
    let stray := Message.addressed "RENAME" "orders"
    let insert := Message.addressed "INSERT" "orders"
    let batch := [create, create, stray, insert]
    let rest : List Entry :=
      [⟨create, [.ended (.completed true, some .ok), .dropped]⟩,
        ⟨insert, [.dropped, .ended (.completed false, none)]⟩]
    Thins Entry.Harmless (w.registry.account batch s) rest ∧
      w.registry.account [create, insert] s = rest ∧
      w.streams (w.registry.dispatch [create, insert] s).state =
        w.streams (w.registry.dispatch batch s).state := by
  intro w s create stray insert batch rest
  -- computed once; of the four messages the second and the third are harmless
  have haccount : w.registry.account batch s =
      [⟨create, [.ended (.completed true, some .ok), .dropped]⟩,
        ⟨create, [.ended (Processor.conclude (.error (taken "orders"))), .dropped]⟩,
        ⟨stray, [.dropped, .dropped]⟩,
        ⟨insert, [.dropped, .ended (.completed false, none)]⟩] := by
    dsimp only [w, s, batch, create, stray, insert]
    decide +kernel
  have htwice : Entry.Harmless
      ⟨create, [.ended (Processor.conclude (.error (taken "orders"))), .dropped]⟩ :=
    .inr ⟨_, List.mem_cons_self, _, rfl⟩
  have hstray : Entry.Harmless ⟨stray, [.dropped, .dropped]⟩ := by
    left
    simp [Fate.dropped, Fate.ended]
  have hthins : Thins Entry.Harmless (w.registry.account batch s) rest := by
    rw [haccount]
    exact .kept _ (.struck htwice (.struck hstray (.kept _ .nil)))
  exact ⟨hthins, w.harmless_messages_inert s batch hthins⟩

end Standard

end StreamControl
