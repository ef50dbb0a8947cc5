import StreamControl.Proofs.Standard.Locality

/-!
# A batch as a whole and message by message

The registry gives a whole batch to one processor before the next one sees it, so that all streams are
created and dropped before the first event is sent.  The same happens if the definitions of the batch
are dispatched one at a time and its events after them.  If no event goes to a stream that a later
message of the batch defines (`Standard.DefinedFirst`), it is even the same as dispatching the messages
one at a time in the order of the batch (`Standard.Wiring.dispatch_eq_singly`).

The events are moved past the later definitions one at a time.  They are about other streams, and
messages about different streams commute (`Policy.Commutes.past`).
-/

namespace StreamControl

variable {σ τ : Type}

/-! ## Moving a message past others -/

namespace Policy

variable {q q' : Policy Streams} {m : Message} {ms : List Message}

/-- The second policy may see a message before the first one sees a later one: one of them has nothing
to do, or the two messages are about different streams. -/
def Commutes (q q' : Policy Streams) (m n : Message) : Prop :=
  q' m = none ∨ q n = none ∨ n.Within m.targetᶜ

/-- A message that commutes with others ends alike before and after them, and so do they. -/
theorem Commutes.past (hlocal : q.Local) (hlocal' : q'.Local)
    (h : ∀ n ∈ ms, q.Commutes q' m n) (t : Streams) :
    q.answers ms (q'.after m t) = q.answers ms t ∧
      q'.answer m (q.afterAll ms t) = q'.answer m t ∧
      q.afterAll ms (q'.after m t) = q'.after m (q.afterAll ms t) := by
  by_cases hnone : q' m = none
  · rw [after_of_none hnone, after_of_none hnone, answer_of_none hnone, answer_of_none hnone]
    exact ⟨rfl, rfl, rfl⟩
  have hapart : ∀ n ∈ ms, q n = none ∨ n.Within m.targetᶜ := fun n hn => (h n hn).resolve_left hnone
  have hwithin : m.Within (m.targetᶜ)ᶜ := fun stream hstream hother => hother hstream
  -- the message leaves the other streams alone, the others leave its stream alone
  have hothers : (q'.after m t).AgreeOn m.targetᶜ t := hlocal'.spares t hwithin
  have htarget : ∀ s, (q.afterAll ms s).AgreeOn m.target s := hlocal.afterAll_spares hapart
  obtain ⟨hanswer, hafter⟩ := hlocal'.within m.within_target (htarget t)
  refine ⟨hlocal.answers_eq hapart hothers, hanswer, ?_⟩
  have hchanged : (q.afterAll ms (q'.after m t)).AgreeOn m.target (q'.after m (q.afterAll ms t)) :=
    (htarget _).trans hafter.symm
  have hkept : (q.afterAll ms (q'.after m t)).AgreeOn m.targetᶜ (q'.after m (q.afterAll ms t)) :=
    (hlocal.afterAll hothers ms).trans (hlocal'.spares _ hwithin).symm
  exact hchanged.eq hkept

/-- Giving each message to both policies before the next one comes to the same as two passes, if every
message commutes with those behind it. -/
theorem singly_of_commutes (hlocal : q.Local) (hlocal' : q'.Local)
    (h : ms.Pairwise (q.Commutes q')) (t : Streams) :
    q.answersSingly q' ms t = (q.answers ms t).zip (q'.answers ms (q.afterAll ms t)) ∧
      q.afterSingly q' ms t = q'.afterAll ms (q.afterAll ms t) := by
  induction ms generalizing t with
  | nil => exact ⟨rfl, rfl⟩
  | cons m ms ih =>
    obtain ⟨hfirst, hothers⟩ := List.pairwise_cons.1 h
    -- the second policy is moved past the messages that the first one has still to see
    obtain ⟨hanswers, hanswer, hafter⟩ := Commutes.past hlocal hlocal' hfirst (q.after m t)
    obtain ⟨hends, hstreams⟩ := ih hothers (q'.after m (q.after m t))
    rw [hafter] at hends hstreams
    constructor
    · rw [answersSingly, hends, hanswers, answers, answers, afterAll_cons, List.zip_cons_cons,
        hanswer]
    · rw [afterSingly_cons, hstreams, afterAll_cons, afterAll_cons]

/-- The counts over two passes are the counts over each. -/
theorem reports_zip {p p' : Policy τ} (ms : List Message) (t t' : τ) :
    let answers := (p.answers ms t).zip (p'.answers ms t')
    Report.tally (answers.map (·.1.1)) = p.report ms t ∧
      Report.tally (answers.map (·.2.1)) = p'.report ms t' := by
  have hlength : (p.answers ms t).length = (p'.answers ms t').length := by
    rw [length_answers, length_answers]
  have hfirst := List.map_fst_zip (Nat.le_of_eq hlength)
  have hsecond := List.map_snd_zip (Nat.le_of_eq hlength.symm)
  constructor
  · rw [report, ← hfirst, List.map_map, hfirst]
    rfl
  · rw [report, ← hsecond, List.map_map, hsecond]
    rfl

/-! ## Parts of a batch -/

section Parts

variable {p p' : Policy τ} {about : Message → Bool} {batch : List Message} {t t' u u' : τ}

/-- A policy tells the messages that are about something from all others: it answers to none of the
others, or to none of these.  For these, a pass over a batch that starts at the first view goes as a
pass over them alone that starts at the second. -/
inductive Separates (p : Policy τ) (about : Message → Bool) : τ → τ → Prop
  | others {t : τ} : (∀ m, about m = false → p m = none) → Separates p about t t
  | chosen {t u : τ} : (∀ m, about m = true → p m = none) → Separates p about t u

theorem Separates.of_about (h : p.Separates about t u) {m : Message} (hm : about m = true) :
    p.answer m t = p.answer m u ∧ p.Separates about (p.after m t) (p.after m u) := by
  cases h with
  | others hothers => exact ⟨rfl, .others hothers⟩
  | chosen hchosen =>
    rw [answer_of_none (hchosen m hm), answer_of_none (hchosen m hm)]
    exact ⟨rfl, .chosen hchosen⟩

theorem Separates.of_not_about (h : p.Separates about t u) {m : Message} (hm : about m = false) :
    p.Separates about (p.after m t) u := by
  cases h with
  | others hothers =>
    rw [after_of_none (hothers m hm)]
    exact .others hothers
  | chosen hchosen => exact .chosen hchosen

/-- The part of a batch that is about something meets the fates that it meets on its own. -/
theorem entries_filter (h : p.Separates about t u) (h' : p'.Separates about t' u') :
    (p.entries p' batch t t').filter (about ·.message) =
      p.entries p' (batch.filter about) u u' := by
  induction batch generalizing t t' u u' with
  | nil => rfl
  | cons m ms ih =>
    rw [entries_cons]
    -- other messages leave alone what these are about, on either side
    rcases hm : about m with _ | _
    · rw [List.filter_cons_of_neg (by simp [Entry.paired, hm]),
        List.filter_cons_of_neg (by simp [hm])]
      exact ih (h.of_not_about hm) (h'.of_not_about hm)
    · obtain ⟨hanswer, hafter⟩ := h.of_about hm
      obtain ⟨hanswer', hafter'⟩ := h'.of_about hm
      rw [List.filter_cons_of_pos (by simp [Entry.paired, hm]), List.filter_cons_of_pos hm,
        entries_cons, hanswer, hanswer', ih hafter hafter']

/-- Messages that the policy does not answer to can be left out. -/
theorem afterAll_filter (h : ∀ m, about m = false → p m = none) (batch : List Message) (t : τ) :
    p.afterAll (batch.filter about) t = p.afterAll batch t := by
  induction batch generalizing t with
  | nil => rfl
  | cons m ms ih =>
    rcases hm : about m with _ | _
    · rw [List.filter_cons_of_neg (by simp [hm]), afterAll_cons, after_of_none (h m hm), ih]
    · rw [List.filter_cons_of_pos hm, afterAll_cons, afterAll_cons, ih]

theorem afterAll_of_none {ms : List Message} (h : ∀ m ∈ ms, p m = none) (t : τ) :
    p.afterAll ms t = t := by
  induction ms with
  | nil => rfl
  | cons m ms ih =>
    rw [afterAll_cons, after_of_none (h m List.mem_cons_self)]
    exact ih fun n hn => h n (List.mem_cons_of_mem m hn)

/-- Every entry is of a message, with what the two policies answered to it. -/
theorem exists_of_mem_entries {ms : List Message} {t t' : τ} {entry : Entry}
    (h : entry ∈ p.entries p' ms t t') :
    ∃ m u u', entry = .paired m (p.answer m u, p'.answer m u') := by
  induction ms generalizing t t' with
  | nil => contradiction
  | cons m ms ih =>
    rw [entries_cons] at h
    rcases List.mem_cons.1 h with rfl | hothers
    · exact ⟨m, t, t', rfl⟩
    · exact ih hothers

theorem entries_append (before rest : List Message) (t t' : τ) :
    p.entries p' (before ++ rest) t t' =
      p.entries p' before t t' ++
        p.entries p' rest (p.afterAll before t) (p'.afterAll before t') := by
  induction before generalizing t t' with
  | nil => rfl
  | cons m ms ih => rw [List.cons_append, entries_cons, entries_cons, ih]; rfl

end Parts

end Policy

/-! ## The standard registry -/

namespace Standard

/-- No event is sent to a stream that a later message creates or drops. -/
def DefinedFirst (batch : List Message) : Prop :=
  batch.Pairwise fun m n => IsInsert m → IsDefinition n →
    ∀ stream, m.stream? = some stream → n.stream? ≠ some stream

theorem DefinedFirst.commutes {batch : List Message} (h : DefinedFirst batch) :
    batch.Pairwise (definitionPolicy.Commutes insertPolicy) := by
  refine h.imp ?_
  intro m n hapart
  -- only an event before a definition could fail to commute, and those are about other streams
  by_cases hinsert : IsInsert m
  · by_cases hdefinition : IsDefinition n
    · right; right
      intro stream hstream htarget
      exact hapart hinsert hdefinition stream htarget hstream
    · right; left
      exact definitionPolicy_eq_none hdefinition
  · left
    exact insertPolicy_eq_none hinsert

/-- The messages of a batch that create and drop streams, in their order, and after them those that send
events. -/
def definitionsFirst (batch : List Message) : List Message :=
  batch.filter (IsDefinition ·) ++ batch.filter (IsInsert ·)

theorem not_isInsert_of_mem {batch : List Message} {m : Message}
    (hm : m ∈ batch.filter (IsDefinition ·)) : ¬ IsInsert m := by
  have hdefinition : IsDefinition m := of_decide_eq_true (List.mem_filter.1 hm).2
  exact hdefinition.not_isInsert

theorem not_isDefinition_of_mem {batch : List Message} {m : Message}
    (hm : m ∈ batch.filter (IsInsert ·)) : ¬ IsDefinition m := by
  intro hdefinition
  exact hdefinition.not_isInsert (of_decide_eq_true (List.mem_filter.1 hm).2)

theorem definedFirst_definitionsFirst (batch : List Message) :
    DefinedFirst (definitionsFirst batch) := by
  refine List.pairwise_append.2 ⟨?_, ?_, ?_⟩
  · refine List.pairwise_of_forall_mem_list ?_
    intro m hm n _ hinsert
    exact absurd hinsert (not_isInsert_of_mem hm)
  · refine List.pairwise_of_forall_mem_list ?_
    intro m _ n hn _ hdefinition
    exact absurd hdefinition (not_isDefinition_of_mem hn)
  · intro m hm n _ hinsert
    exact absurd hinsert (not_isInsert_of_mem hm)

namespace Wiring

/-- Where no event goes before a definition, a batch may be dispatched one message at a time. -/
theorem singly_of_definedFirst (w : Wiring σ) {batch : List Message} (h : DefinedFirst batch)
    (s : σ) :
    w.streams (w.registry.dispatchSingly batch s).state =
        w.streams (w.registry.dispatch batch s).state ∧
      w.registry.accountSingly batch s = w.registry.account batch s ∧
      (w.registry.dispatchSingly batch s).result = (w.registry.dispatch batch s).result := by
  obtain ⟨hanswers, hstreams⟩ := Policy.singly_of_commutes local_definitionPolicy local_insertPolicy
    h.commutes (w.streams s)
  obtain ⟨hsingly, hstate⟩ := w.dispatchSingly_eq batch s
  obtain ⟨hbatch, hstate'⟩ := w.dispatch_eq batch s
  refine ⟨?_, ?_, ?_⟩
  · rw [hstate, hstreams, hstate']
  · rw [accountSingly_eq, hanswers, account_eq]
    rfl
  · obtain ⟨hdefined, hinserted⟩ := Policy.reports_zip batch (w.streams s)
      (definitionPolicy.afterAll batch (w.streams s))
    rw [hsingly, hanswers, hbatch, hdefined, hinserted]

/-- The definitions of a batch, in their order, and its events, in theirs, decide everything. -/
theorem dispatch_definitionsFirst (w : Wiring σ) (batch : List Message) (s : σ) :
    w.streams (w.registry.dispatch (definitionsFirst batch) s).state =
        w.streams (w.registry.dispatch batch s).state ∧
      w.registry.account (definitionsFirst batch) s =
        (w.registry.account batch s).filter (IsDefinition ·.message) ++
          (w.registry.account batch s).filter (IsInsert ·.message) := by
  have hnone : ∀ m, decide (IsDefinition m) = false → definitionPolicy m = none := fun m hm =>
    definitionPolicy_eq_none (of_decide_eq_false hm)
  have hnone' : ∀ m, decide (IsInsert m) = false → insertPolicy m = none := fun m hm =>
    insertPolicy_eq_none (of_decide_eq_false hm)
  have hinserts : ∀ m, decide (IsInsert m) = true → definitionPolicy m = none := fun m hm =>
    definitionPolicy_eq_none fun hdefinition => hdefinition.not_isInsert (of_decide_eq_true hm)
  have hdefinitions : ∀ m, decide (IsDefinition m) = true → insertPolicy m = none := fun m hm =>
    insertPolicy_eq_none (of_decide_eq_true hm : IsDefinition m).not_isInsert
  -- each pass leaves the streams as it does with the messages of the other processor in between
  have hdefined : ∀ t, definitionPolicy.afterAll (definitionsFirst batch) t =
      definitionPolicy.afterAll batch t := by
    intro t
    rw [definitionsFirst, Policy.afterAll_append,
      Policy.afterAll_of_none fun m hm => hinserts m (List.mem_filter.1 hm).2]
    exact Policy.afterAll_filter hnone batch t
  have hskipped : ∀ t, insertPolicy.afterAll (batch.filter (IsDefinition ·)) t = t := by
    intro t
    exact Policy.afterAll_of_none (fun m hm => hdefinitions m (List.mem_filter.1 hm).2) t
  have hinserted : ∀ t, insertPolicy.afterAll (definitionsFirst batch) t =
      insertPolicy.afterAll batch t := by
    intro t
    rw [definitionsFirst, Policy.afterAll_append, hskipped]
    exact Policy.afterAll_filter hnone' batch t
  constructor
  · rw [(w.dispatch_eq _ s).2, (w.dispatch_eq batch s).2, hdefined, hinserted]
  · rw [account_eq, account_eq, hdefined, definitionsFirst, Policy.entries_append, hskipped]
    refine congrArg₂ _ ?_ ?_
    · exact (Policy.entries_filter (.others hnone) (.chosen hdefinitions)).symm
    · exact (Policy.entries_filter (.chosen hinserts) (.others hnone')).symm

/-- **A batch as a whole and message by message.**  Dispatching a batch comes to the same streams, and
to the same fate for every message, as dispatching one at a time first its messages that create and
drop streams and then those that send events; all others are dropped.  If the batch sends no event to
a stream that a later message of it creates or drops, it comes to the same streams, fates and reports
as dispatching its messages one at a time in their order. -/
theorem dispatch_eq_dispatchSingly (w : Wiring σ) (s : σ) (batch : List Message) :
    (w.streams (w.registry.dispatchSingly (definitionsFirst batch) s).state =
        w.streams (w.registry.dispatch batch s).state ∧
      w.registry.accountSingly (definitionsFirst batch) s =
        (w.registry.account batch s).filter (IsDefinition ·.message) ++
          (w.registry.account batch s).filter (IsInsert ·.message) ∧
      ∀ entry ∈ w.registry.account batch s, ¬ IsDefinition entry.message →
        ¬ IsInsert entry.message → entry.fates = [.dropped, .dropped]) ∧
    (DefinedFirst batch →
      w.streams (w.registry.dispatchSingly batch s).state =
          w.streams (w.registry.dispatch batch s).state ∧
        w.registry.accountSingly batch s = w.registry.account batch s ∧
        ∃ reports, (w.registry.dispatchSingly batch s).result = .ok reports ∧
          (w.registry.dispatch batch s).result = .ok reports) := by
  constructor
  · -- sorted, the batch sends no event before a definition, and sorting it changes nothing
    obtain ⟨hstreams, haccount, -⟩ :=
      w.singly_of_definedFirst (definedFirst_definitionsFirst batch) s
    obtain ⟨hstreams', haccount'⟩ := w.dispatch_definitionsFirst batch s
    refine ⟨hstreams.trans hstreams', haccount.trans haccount', ?_⟩
    intro entry hentry hdefinition hinsert
    rw [account_eq] at hentry
    obtain ⟨m, u, u', rfl⟩ := Policy.exists_of_mem_entries hentry
    have hnone : definitionPolicy m = none := definitionPolicy_eq_none hdefinition
    have hnone' : insertPolicy m = none := insertPolicy_eq_none hinsert
    rw [Entry.paired, Policy.answer_of_none hnone, Policy.answer_of_none hnone']
    rfl
  · intro hfirst
    obtain ⟨hstreams, haccount, hresult⟩ := w.singly_of_definedFirst hfirst s
    have hreports := (w.dispatch_eq batch s).1
    exact ⟨hstreams, haccount, _, hresult.trans hreports, hreports⟩

/-- An event is sent between the creation of its stream and the creation of another one: it makes no
difference that the registry creates both before it sends the event. -/
theorem dispatch_eq_dispatchSingly_between :
    let w := engine Config.default
    let s := Engine.new Config.default (.still 0)
    let batch : List Message :=
      [.addressed "CREATE" "orders", .addressed "INSERT" "orders", .addressed "create" "users"]
    DefinedFirst batch ∧
      w.streams (w.registry.dispatchSingly batch s).state =
        w.streams (w.registry.dispatch batch s).state ∧
      w.registry.accountSingly batch s = w.registry.account batch s ∧
      ∃ reports, (w.registry.dispatchSingly batch s).result = .ok reports ∧
        (w.registry.dispatch batch s).result = .ok reports := by
  intro w s batch
  have hfirst : DefinedFirst batch := by
    refine .cons ?_ (.cons ?_ (List.pairwise_singleton _ _))
    · intro n _ hinsert
      exact absurd hinsert (by decide +kernel)
    · intro n hn _ _ stream hstream
      rw [List.mem_singleton.1 hn]
      cases hstream
      decide
  exact ⟨hfirst, (w.dispatch_eq_dispatchSingly s batch).2 hfirst⟩

-- an event whose stream is dropped behind it is lost when the batch is dispatched as a whole
example :
    let w := engine Config.default
    let s := Engine.new Config.default (.still 0)
    let batch : List Message :=
      [.addressed "CREATE" "orders", .addressed "INSERT" "orders", .addressed "DROP" "orders"]
    w.registry.accountSingly batch s ≠ w.registry.account batch s := by decide +kernel

end Wiring

end Standard

end StreamControl
