import Mathlib.Data.Set.Basic
import StreamControl.Proofs.Standard.Wiring

/-!
# A message looks at its own stream only

Every command of the standard processors reads the stream that its message names and the operations
that the engine's own streams admit, and changes that stream at most.  Said for streams that agree on
a set of names (`Streams.AgreeOn`): messages within the set end alike and keep the agreement, and
messages outside it touch nothing of it (`Policy.Local`).

Passes over a batch inherit both (`Policy.Local.afterAll_filter`, `Policy.Local.answers_eq`), and so
messages about different streams commute.
-/

namespace StreamControl

variable {names : Set String} {s t u : Streams} {stream : String}

/-! ## Agreement -/

/-- Two collections agree on the streams of some names and on what the engine's own streams admit. -/
structure Streams.AgreeOn (names : Set String) (s t : Streams) : Prop where
  streams : ∀ name ∈ names, s.get? name = t.get? name
  operations : s.internalOperations = t.internalOperations

namespace Streams.AgreeOn

theorem refl (names : Set String) (s : Streams) : s.AgreeOn names s := ⟨fun _ _ => rfl, rfl⟩

theorem symm (h : s.AgreeOn names t) : t.AgreeOn names s :=
  ⟨fun name hname => (h.streams name hname).symm, h.operations.symm⟩

theorem trans (h : s.AgreeOn names t) (h' : t.AgreeOn names u) : s.AgreeOn names u :=
  ⟨fun name hname => (h.streams name hname).trans (h'.streams name hname),
    h.operations.trans h'.operations⟩

/-- Collections that agree on some names and on all others are the same. -/
theorem eq (h : s.AgreeOn names t) (h' : s.AgreeOn namesᶜ t) : s = t := by
  refine ext_get? ?_ h.operations
  intro name
  by_cases hname : name ∈ names
  · exact h.streams name hname
  · exact h'.streams name hname

/-! ### Views -/

theorem contains (h : s.AgreeOn names t) (hstream : stream ∈ names) :
    s.contains stream = t.contains stream := by
  rw [Streams.contains, Streams.contains, h.streams stream hstream]

theorem schema? (h : s.AgreeOn names t) (hstream : stream ∈ names) :
    s.schema? stream = t.schema? stream := by
  rw [Streams.schema?, Streams.schema?, h.streams stream hstream]

theorem isUserDefined (h : s.AgreeOn names t) (hstream : stream ∈ names) :
    s.isUserDefined stream = t.isUserDefined stream := by
  rw [Streams.isUserDefined, Streams.isUserDefined, h.schema? hstream]

theorem admits (h : s.AgreeOn names t) (hstream : stream ∈ names) (operation : String) :
    s.admits stream operation = t.admits stream operation := by
  rw [Streams.admits, Streams.admits, h.schema? hstream, h.operations]

end Streams.AgreeOn

/-! ## Changes of one stream -/

/-- Two changes are refused alike, or give collections that agree. -/
inductive Streams.Alike {ε : Type} (names : Set String) :
    Except ε Streams → Except ε Streams → Prop
  | refused (e : ε) : Alike names (.error e) (.error e)
  | made {s t : Streams} : s.AgreeOn names t → Alike names (.ok s) (.ok t)

theorem Streams.Alike.mapError {ε δ : Type} {x y : Except ε Streams} (h : Alike names x y)
    (pass : ε → δ) : Alike names (x.mapError pass) (y.mapError pass) := by
  cases h with
  | refused e => exact .refused (pass e)
  | made hagree => exact .made hagree

/-- A change of a stream that looks at this stream only and leaves all others alone. -/
structure Streams.Local {ε : Type} (change : (stream : String) → Streams → Except ε Streams) :
    Prop where
  alike : ∀ {names : Set String} {s t : Streams} {stream : String}, stream ∈ names →
    s.AgreeOn names t → Alike names (change stream s) (change stream t)
  spares : ∀ {s t : Streams} {stream : String}, change stream s = .ok t → t.AgreeOn {stream}ᶜ s

namespace Streams

theorem local_create (columns : List Column) : Local fun stream s => s.create stream columns where
  alike := by
    intro names s t stream hstream hagree
    have hcontains := hagree.contains hstream
    -- whether the columns are valid does not depend on the streams, only whether the name is free
    rcases hdeclared : declarations stream columns with e | declared
    · simp only [create, hdeclared]
      exact .refused e
    rcases hrepeated : firstRepeated? [] (declared.map (·.name)) with _ | column
    · simp only [create, hdeclared, hrepeated, hcontains]
      split
      · exact .refused _
      · refine .made ⟨?_, hagree.operations⟩
        intro name hname
        rw [get?_install, get?_install, hagree.streams name hname]
    · simp only [create, hdeclared, hrepeated]
      exact .refused _
  spares := by
    intro s t stream hcreate
    obtain ⟨declared, -, -, -, rfl⟩ := create_eq_ok_iff.1 hcreate
    refine ⟨?_, rfl⟩
    intro name hname
    have hother : (Schema.user stream declared).name ≠ name := Ne.symm hname
    rw [get?_install, if_neg hother]

theorem local_drop : Local fun stream s => s.drop stream where
  alike := by
    intro names s t stream hstream hagree
    have hcontains := hagree.contains hstream
    simp only [drop, hcontains]
    split
    · refine .made ⟨?_, hagree.operations⟩
      intro name hname
      have hget := hagree.streams name hname
      simp only [get?, Std.ExtTreeMap.getElem?_erase] at hget ⊢
      rw [hget]
    · exact .refused _
  spares := by
    intro s t stream hdrop
    have hothers := get?_drop hdrop
    obtain ⟨-, rfl⟩ := drop_eq_ok_iff.1 hdrop
    refine ⟨?_, rfl⟩
    intro name hname
    rw [hothers, if_neg (Ne.symm hname)]

theorem local_send (payload : List Column) : Local fun stream s => s.send stream payload where
  alike := by
    intro names s t stream hstream hagree
    have hget := hagree.streams stream hstream
    -- the schema that the payload is held against is that of the stream itself
    rcases hstate : t.get? stream with _ | state
    · simp only [send, hget, hstate]
      exact .refused _
    rcases hviolations : state.schema.violations payload with _ | ⟨violation, others⟩
    · simp only [send, hget, hstate, hviolations]
      refine .made ⟨?_, hagree.operations⟩
      intro name hname
      have hname := hagree.streams name hname
      simp only [get?, Std.ExtTreeMap.getElem?_insert] at hname ⊢
      rw [hname]
    · simp only [send, hget, hstate, hviolations]
      exact .refused _
  spares := by
    intro s t stream hsend
    have hothers := get?_send hsend
    obtain ⟨_, -, -, rfl⟩ := send_eq_ok_iff.1 hsend
    refine ⟨?_, rfl⟩
    intro name hname
    rw [hothers, if_neg (Ne.symm hname)]

/-! ### Decisions -/

namespace Local

variable {ε δ : Type} {change change' : (stream : String) → Streams → Except ε Streams}

theorem refused (failure : (stream : String) → ε) :
    Local fun stream _ => (.error (failure stream) : Except ε Streams) where
  alike := fun _ _ => .refused _
  spares := by
    intro s t stream hmade
    contradiction

theorem mapError (h : Local change) (pass : ε → δ) :
    Local fun stream s => (change stream s).mapError pass where
  alike := fun hstream hagree => (h.alike hstream hagree).mapError pass
  spares := fun hmade => h.spares (Standard.mapError_eq_ok_iff.1 hmade)

/-- A test of the stream may decide between two changes. -/
theorem ite {test : (stream : String) → Streams → Bool}
    (htest : ∀ {names : Set String} {s t : Streams} {stream : String}, stream ∈ names →
      s.AgreeOn names t → test stream s = test stream t)
    (h : Local change) (h' : Local change') :
    Local fun stream s => if test stream s then change stream s else change' stream s where
  alike := by
    intro names s t stream hstream hagree
    rw [htest hstream hagree]
    split
    · -- the test answers alike on states that agree, so both take the same change
      exact h.alike hstream hagree
    · exact h'.alike hstream hagree
  spares := by
    intro s t stream hmade
    split at hmade
    · exact h.spares hmade
    · exact h'.spares hmade

end Local

end Streams

/-! ## Policies -/

/-- The stream that a message names, if it names one, is among some names. -/
def Message.Within (names : Set String) (m : Message) : Prop :=
  ∀ stream, m.stream? = some stream → stream ∈ names

theorem Message.within_or (names : Set String) (m : Message) : m.Within names ∨ m.Within namesᶜ := by
  rcases hstream : m.stream? with _ | stream
  · left
    intro stream hsome
    cases hstream.symm.trans hsome
  · by_cases hname : stream ∈ names
    · left
      intro other hother
      cases hstream.symm.trans hother
      exact hname
    · right
      intro other hother
      cases hstream.symm.trans hother
      exact hname

/-- The stream that a message names, as a set. -/
def Message.target (m : Message) : Set String := fun stream => m.stream? = some stream

theorem Message.within_target (m : Message) : m.Within m.target := fun _ hstream => hstream

/-- A policy under which messages look at the stream that they name and change no other. -/
structure Policy.Local (q : Policy Streams) : Prop where
  within : ∀ {names : Set String} {m : Message} {s t : Streams}, m.Within names →
    s.AgreeOn names t → q.answer m s = q.answer m t ∧ (q.after m s).AgreeOn names (q.after m t)
  spares : ∀ {names : Set String} {m : Message} (s : Streams), m.Within namesᶜ →
    (q.after m s).AgreeOn names s

namespace Standard

variable {m : Message} {decide : (stream : String) → Streams → Except Failure Streams}

theorem alike_verdictOn (h : Streams.Local decide) (hwithin : m.Within names)
    (hagree : s.AgreeOn names t) :
    Streams.Alike names (verdictOn m decide s) (verdictOn m decide t) := by
  unfold verdictOn
  rcases hstream : m.stream? with _ | stream
  · exact .refused _
  · have hname := hwithin stream hstream
    dsimp only
    rw [hagree.admits hname]
    split
    · exact h.alike hname hagree
    · exact .refused _

theorem spares_verdictOn (h : Streams.Local decide) (hwithin : m.Within namesᶜ)
    (hmade : verdictOn m decide s = .ok t) : t.AgreeOn names s := by
  obtain ⟨stream, hstream, -, hdecided⟩ := verdictOn_eq_ok_iff.1 hmade
  have hothers := h.spares hdecided
  refine ⟨?_, hothers.operations⟩
  intro name hname
  refine hothers.streams name ?_
  rintro rfl
  exact hwithin name hstream hname

/-- A policy is local if every ruling is a verdict on the stream of the message and the decision about
that stream is. -/
theorem local_of_verdicts {q : Policy Streams}
    (h : ∀ m ruling, q m = some ruling →
      ∃ decide, Streams.Local decide ∧ ruling.verdict = verdictOn m decide) : q.Local where
  within := by
    intro names m s t hwithin hagree
    rcases hruling : q m with _ | ruling
    · rw [Policy.answer_of_none hruling, Policy.answer_of_none hruling,
        Policy.after_of_none hruling, Policy.after_of_none hruling]
      exact ⟨rfl, hagree⟩
    · obtain ⟨decide, hlocal, hverdict⟩ := h m ruling hruling
      have halike := alike_verdictOn hlocal hwithin hagree
      rw [← hverdict] at halike
      simp only [Policy.answer, Policy.after, hruling, Ruling.given, Ruling.after]
      -- the two verdicts depend on states that agree on the stream, so they are compared as a whole
      revert halike
      generalize ruling.verdict s = x, ruling.verdict t = y
      intro halike
      cases halike with
      | refused e => exact ⟨rfl, hagree⟩
      | made hafter => exact ⟨rfl, hafter⟩
  spares := by
    intro names m s hwithin
    rcases hruling : q m with _ | ruling
    · rw [Policy.after_of_none hruling]
      exact .refl names s
    · obtain ⟨decide, hlocal, hverdict⟩ := h m ruling hruling
      simp only [Policy.after, hruling, Ruling.after]
      rcases hmade : ruling.verdict s with e | t
      · exact .refl names s
      · rw [hverdict] at hmade
        exact spares_verdictOn hlocal hwithin hmade

theorem local_definitionPolicy : definitionPolicy.Local := by
  refine local_of_verdicts ?_
  intro m ruling hruling
  unfold definitionPolicy at hruling
  split at hruling
  · cases hruling
    refine ⟨_, ?_, rfl⟩
    -- both decisions ask only about the stream of the message before they change it
    exact .ite (fun hstream hagree => hagree.contains hstream) (.refused taken)
      ((Streams.local_create m.columns).mapError _)
  · split at hruling
    · cases hruling
      refine ⟨_, ?_, rfl⟩
      exact .ite (fun hstream hagree => hagree.contains hstream)
        (.ite (fun hstream hagree => hagree.isUserDefined hstream)
          (Streams.local_drop.mapError _) (.refused notUserDefined)) (.refused missing)
    · contradiction

theorem local_insertPolicy : insertPolicy.Local := by
  refine local_of_verdicts ?_
  intro m ruling hruling
  unfold insertPolicy at hruling
  split at hruling
  · cases hruling
    refine ⟨_, ?_, rfl⟩
    exact .ite (fun hstream hagree => hagree.contains hstream)
      ((Streams.local_send m.columns).mapError _) (.refused missing)
  · contradiction

end Standard

/-! ## Passes -/

namespace Policy.Local

variable {q q' : Policy Streams} {m : Message} {ms : List Message}

/-- Agreement survives every message. -/
theorem after (h : q.Local) (hagree : s.AgreeOn names t) (m : Message) :
    (q.after m s).AgreeOn names (q.after m t) := by
  rcases m.within_or names with hwithin | hwithout
  · exact (h.within hwithin hagree).2
  · exact ((h.spares s hwithout).trans hagree).trans (h.spares t hwithout).symm

theorem afterAll (h : q.Local) (hagree : s.AgreeOn names t) (ms : List Message) :
    (q.afterAll ms s).AgreeOn names (q.afterAll ms t) := by
  induction ms generalizing s t with
  | nil => exact hagree
  | cons m ms ih => exact ih (h.after hagree m)

/-- What becomes of some streams is known from the messages that are about them. -/
theorem afterAll_filter (h : q.Local) {about : Message → Bool}
    (habout : ∀ m ∈ ms, about m = false → q m = none ∨ m.Within namesᶜ)
    (hagree : s.AgreeOn names t) :
    (q.afterAll ms s).AgreeOn names (q.afterAll (ms.filter about) t) := by
  induction ms generalizing s t with
  | nil => exact hagree
  | cons m ms ih =>
    have hothers := fun n hn => habout n (List.mem_cons_of_mem m hn)
    -- a message about other streams is left out on one side and does nothing to these on the other
    rcases habout' : about m with _ | _
    · rw [List.filter_cons_of_neg (ne_true_of_eq_false habout'), afterAll_cons]
      refine ih hothers ?_
      rcases habout m List.mem_cons_self habout' with hnone | hwithout
      · rw [after_of_none hnone]
        exact hagree
      · exact (h.spares s hwithout).trans hagree
    · rw [List.filter_cons_of_pos habout', afterAll_cons, afterAll_cons]
      exact ih hothers (h.after hagree m)

/-- Messages that are not about some streams leave them alone. -/
theorem afterAll_spares (h : q.Local) (hms : ∀ m ∈ ms, q m = none ∨ m.Within namesᶜ)
    (s : Streams) : (q.afterAll ms s).AgreeOn names s := by
  have hfilter : (q.afterAll ms s).AgreeOn names (q.afterAll (ms.filter fun _ => false) s) :=
    h.afterAll_filter (fun m hm _ => hms m hm) (.refl names s)
  rw [List.filter_false] at hfilter
  exact hfilter

/-- No message changes what the engine's own streams admit. -/
theorem agreeOn_empty (h : q.Local) (ms : List Message) (s : Streams) :
    (q.afterAll ms s).AgreeOn ∅ s := by
  refine h.afterAll_spares ?_ s
  intro m _
  right
  intro stream _ hmem
  exact hmem

/-- Messages about some streams end alike wherever these agree. -/
theorem answers_eq (h : q.Local) (hms : ∀ m ∈ ms, q m = none ∨ m.Within names)
    (hagree : s.AgreeOn names t) : q.answers ms s = q.answers ms t := by
  induction ms generalizing s t with
  | nil => rfl
  | cons m ms ih =>
    have hothers := ih (fun n hn => hms n (List.mem_cons_of_mem m hn)) (h.after hagree m)
    have hfirst : q.answer m s = q.answer m t := by
      rcases hms m List.mem_cons_self with hnone | hwithin
      · rw [answer_of_none hnone, answer_of_none hnone]
      · exact (h.within hwithin hagree).1
    rw [answers, answers, hfirst, hothers]

end Policy.Local

end StreamControl
