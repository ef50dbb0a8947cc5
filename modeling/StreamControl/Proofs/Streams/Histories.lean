import Mathlib.Data.List.Induction
import StreamControl.Dispatch.Config
import StreamControl.Streams.Service

/-!
# Histories of the streams

The streams are changed by four calls: the engine reserves a stream, and users create one, drop one
or send to one.  A history lists the calls made so far, each with what it gave; `Streams.Reached`
relates it to the streams that it leads to.

* `StreamCall.Makes` says by rules what a successful call makes of the one stream that it names, and
  `StreamCall.perform_cases` that a call either does that or is refused and does nothing.  All that
  is proved of a single call comes from these two.
* `Streams.Reached.rule` carries what single calls keep to all histories.
-/

namespace StreamControl

/-! ## Calls -/

/-- A call that may change the streams. -/
inductive StreamCall
  | reserve (schema : Schema)
  | create (stream : String) (columns : List Column)
  | drop (stream : String)
  | send (stream : String) (payload : List Column)

namespace StreamCall

/-- The stream that a call is addressed to. -/
def stream : StreamCall → String
  | .reserve schema => schema.name
  | .create stream _ | .drop stream | .send stream _ => stream

/-- Makes a call, where the streams are the whole state. -/
def perform : StreamCall → Step Streams (Except StreamError Unit)
  | .reserve schema => do
    Step.update (·.reserve schema)
    return .ok ()
  | .create stream columns => (Streams.service .whole).create stream columns
  | .drop stream => (Streams.service .whole).drop stream
  | .send stream payload => (Streams.service .whole).send stream payload

/-- What a successful call makes of the stream that it is addressed to: it puts one in place without
events, takes one away, or adds an event that fits the schema. -/
inductive Makes : StreamCall → Option StreamState → Option StreamState → Prop
  | reserved (schema : Schema) (before : Option StreamState) :
      Makes (.reserve schema) before (some ⟨.internal schema.name schema.columns, []⟩)
  | created {stream : String} {columns : List Column} {declared : List Declaration} :
      Streams.declarations stream columns = .ok declared → (declared.map (·.name)).Nodup →
      Makes (.create stream columns) none (some ⟨.user stream declared, []⟩)
  | dropped (stream : String) (state : StreamState) : Makes (.drop stream) (some state) none
  | sent (stream : String) {state : StreamState} {payload : List Column} :
      state.schema.violations payload = [] →
      Makes (.send stream payload) (some state)
        (some { state with events := state.events ++ [payload] })

end StreamCall

/-! ## Histories -/

/-- A call that was made, with what it gave. -/
structure MadeCall where
  call : StreamCall
  gave : Except StreamError Unit

namespace MadeCall

/-- The engine has reserved a stream without columns. -/
def reserved (name : String) : MadeCall := ⟨.reserve (.internal name []), .ok ()⟩

/-- Whether a call put a stream of this name in place. -/
def places (name : String) : MadeCall → Bool
  | ⟨.reserve schema, .ok ()⟩ => schema.name == name
  | ⟨.create stream _, .ok ()⟩ => stream == name
  | _ => false

/-- Whether a call took a stream of this name away. -/
def removes (name : String) : MadeCall → Bool
  | ⟨.drop stream, .ok ()⟩ => stream == name
  | _ => false

/-- The payload that a call added to the stream of this name. -/
def payload? (name : String) : MadeCall → Option StreamEvent
  | ⟨.send stream payload, .ok ()⟩ => if stream = name then some payload else none
  | _ => none

/-- A call leaves the stream of a name alone. -/
structure Passes (name : String) (c : MadeCall) : Prop where
  places : c.places name = false
  removes : c.removes name = false
  payload : c.payload? name = none

theorem passes_of_error {name : String} {c : MadeCall} {e : StreamError} (h : c.gave = .error e) :
    c.Passes name := by
  obtain ⟨call, gave⟩ := c
  subst h
  cases call <;> exact ⟨rfl, rfl, rfl⟩

/-- A call concerns the stream that it is addressed to and no other. -/
theorem passes_of_ne {name : String} {c : MadeCall} (h : c.call.stream ≠ name) :
    c.Passes name := by
  obtain ⟨call, e | ⟨⟩⟩ := c
  · exact passes_of_error rfl
  · have hname : (call.stream == name) = false := beq_eq_false_iff_ne.2 h
    cases call with
    | reserve schema => exact ⟨hname, rfl, rfl⟩
    | create stream columns => exact ⟨hname, rfl, rfl⟩
    | drop stream => exact ⟨rfl, hname, rfl⟩
    | send stream payload => exact ⟨rfl, rfl, if_neg h⟩

end MadeCall

/-- The streams that a history leads to, from no streams or from those of a configuration; the
engine's own streams count as reserved by calls. -/
inductive Streams.Reached : List MadeCall → Streams → Prop
  | new : Reached [] (.empty [])
  | configured (c : Config) : Reached (c.internalStreams.map .reserved) c.streams
  | call {history : List MadeCall} {s : Streams} (call : StreamCall) :
      Reached history s → Reached (history ++ [⟨call, (call.perform s).result⟩]) (call.perform s).state

/-- Makes calls one after the other, each noted at the end of the history. -/
def Streams.performAll (calls : List StreamCall) (t : List MadeCall × Streams) :
    List MadeCall × Streams :=
  calls.foldl (fun (history, s) call =>
    (history ++ [⟨call, (call.perform s).result⟩], (call.perform s).state)) t

/-- Any calls can follow a history. -/
theorem Streams.Reached.performAll {t : List MadeCall × Streams} (h : Reached t.1 t.2)
    (calls : List StreamCall) : Reached (performAll calls t).1 (performAll calls t).2 := by
  induction calls generalizing t with
  | nil => exact h
  | cons call calls ih => exact ih (h.call call)

/-! ## What one call does -/

namespace Streams

theorem firstRepeated?_eq_none_iff {seen names : List String} :
    firstRepeated? seen names = none ↔ names.Nodup ∧ ∀ n ∈ names, n ∉ seen := by
  induction names generalizing seen with
  | nil => simp [firstRepeated?]
  | cons n ns ih =>
    rw [firstRepeated?]
    by_cases hseen : n ∈ seen
    · simp [hseen]
    · rw [if_neg hseen, ih, List.nodup_cons, List.forall_mem_cons]
      -- to be apart from `n` and `seen` is to be apart from each
      constructor
      · rintro ⟨hnodup, hapart⟩
        have hn : n ∉ ns := fun hmem => hapart n hmem List.mem_cons_self
        exact ⟨⟨hn, hnodup⟩, hseen, fun m hm hmem => hapart m hm (List.mem_cons_of_mem n hmem)⟩
      · rintro ⟨⟨hn, hnodup⟩, -, hapart⟩
        refine ⟨hnodup, fun m hm hmem => ?_⟩
        rcases List.mem_cons.1 hmem with rfl | hmem
        · exact hn hm
        · exact hapart m hm hmem

theorem get?_eq_none_of_contains {s : Streams} {name : String} (h : s.contains name = false) :
    s.get? name = none := Option.isNone_iff_eq_none.1 (by simpa [contains] using h)

/-- A change that the service commits is either refused, and nothing changes, or carried out. -/
theorem commit_cases {σ : Type} {part : Part σ Streams}
    (hpart : ∀ s t, part.get (part.set s t) = t) (change : Streams → Except StreamError Streams)
    (event : List Event) (s : σ) :
    let ran := Step.on part (commit change event) s
    (∃ e, change (part.get s) = .error e ∧ ran.result = .error e ∧
        part.get ran.state = part.get s) ∨
      ∃ after, change (part.get s) = .ok after ∧ ran.result = .ok () ∧
        part.get ran.state = after := by
  intro ran
  have hresult : ran.result = (commit change event (part.get s)).result := rfl
  have hstate : part.get ran.state = (commit change event (part.get s)).state := hpart _ _
  rw [hresult, hstate, commit]
  rcases change (part.get s) with e | after
  · exact .inl ⟨e, rfl, rfl, rfl⟩
  · exact .inr ⟨after, rfl, rfl, rfl⟩

end Streams

namespace StreamCall

/-- Reserving a stream never fails. -/
theorem makes_reserve (schema : Schema) (s : Streams) :
    Makes (.reserve schema) (s.get? schema.name) ((s.reserve schema).get? schema.name) ∧
      ∀ other, schema.name ≠ other → (s.reserve schema).get? other = s.get? other := by
  constructor
  · rw [Streams.get?_reserve, if_pos rfl]
    exact .reserved schema _
  · intro other hother
    rw [Streams.get?_reserve, if_neg hother]

theorem makes_create {s after : Streams} {stream : String} {columns : List Column}
    (h : s.create stream columns = .ok after) :
    Makes (.create stream columns) (s.get? stream) (after.get? stream) ∧
      ∀ other, stream ≠ other → after.get? other = s.get? other := by
  obtain ⟨declared, hdeclared, hunrepeated, hfree, rfl⟩ := Streams.create_eq_ok_iff.1 h
  constructor
  · -- the name was free, and stands for a stream without events now
    have hplaced : (s.install (.user stream declared)).get? stream =
        some ⟨.user stream declared, []⟩ := by
      rw [Streams.get?_install]
      exact if_pos rfl
    rw [Streams.get?_eq_none_of_contains hfree, hplaced]
    exact .created hdeclared (Streams.firstRepeated?_eq_none_iff.1 hunrepeated).1
  · intro other hother
    rw [Streams.get?_install]
    exact if_neg hother

theorem makes_drop {s after : Streams} {stream : String} (h : s.drop stream = .ok after) :
    Makes (.drop stream) (s.get? stream) (after.get? stream) ∧
      ∀ other, stream ≠ other → after.get? other = s.get? other := by
  have hcontained := (Streams.drop_eq_ok_iff.1 h).1
  obtain ⟨state, hstate⟩ := Option.isSome_iff_exists.1 hcontained
  constructor
  · rw [hstate, Streams.get?_drop h, if_pos rfl]
    exact .dropped stream state
  · intro other hother
    rw [Streams.get?_drop h, if_neg hother]

theorem makes_send {s after : Streams} {stream : String} {payload : List Column}
    (h : s.send stream payload = .ok after) :
    Makes (.send stream payload) (s.get? stream) (after.get? stream) ∧
      ∀ other, stream ≠ other → after.get? other = s.get? other := by
  obtain ⟨state, hstate, hfits, -⟩ := Streams.send_eq_ok_iff.1 h
  constructor
  · rw [Streams.get?_send h, if_pos rfl, hstate]
    exact .sent stream hfits
  · intro other hother
    rw [Streams.get?_send h, if_neg hother]

/-- A call that commits a change follows the rules if the change does. -/
theorem cases_of_commit {call : StreamCall} {change : Streams → Except StreamError Streams}
    {s : Streams} (event : List Event)
    (hmakes : ∀ {after}, change s = .ok after →
      call.Makes (s.get? call.stream) (after.get? call.stream) ∧
        ∀ other, call.stream ≠ other → after.get? other = s.get? other) :
    let ran := Step.on .whole (Streams.commit change event) s
    (∃ e, ran.result = .error e ∧ ran.state = s) ∨
      (ran.result = .ok () ∧ call.Makes (s.get? call.stream) (ran.state.get? call.stream) ∧
        ∀ other, call.stream ≠ other → ran.state.get? other = s.get? other) := by
  intro ran
  have hpart : ∀ s t : Streams, Part.whole.get (Part.whole.set s t) = t := fun _ _ => rfl
  rcases Streams.commit_cases hpart change event s with
    ⟨e, -, hrefused⟩ | ⟨after, hafter, hgave, hstate⟩
  · exact .inl ⟨e, hrefused⟩
  · exact .inr ⟨hgave, hmakes (hafter.trans (congrArg _ hstate.symm))⟩

/-- A call is refused and changes nothing, or it succeeds and changes its own stream, by the rules,
and no other. -/
theorem perform_cases (call : StreamCall) (s : Streams) :
    let ran := call.perform s
    (∃ e, ran.result = .error e ∧ ran.state = s) ∨
      (ran.result = .ok () ∧ call.Makes (s.get? call.stream) (ran.state.get? call.stream) ∧
        ∀ other, call.stream ≠ other → ran.state.get? other = s.get? other) := by
  intro ran
  cases call with
  | reserve schema => exact .inr ⟨rfl, makes_reserve schema s⟩
  | create stream columns => exact cases_of_commit [.streamCreated stream columns.length] makes_create
  | drop stream => exact cases_of_commit [.streamRemoved stream] makes_drop
  | send stream payload => exact cases_of_commit [] makes_send

end StreamCall

/-! ## What all calls do -/

namespace Streams

/-- What holds without streams and is kept by every call holds of every history. -/
theorem Reached.rule (inv : List MadeCall → Streams → Prop)
    (hstart : ∀ internalOperations, inv [] (.empty internalOperations))
    (hcall : ∀ {history s} (call : StreamCall), inv history s →
      inv (history ++ [⟨call, (call.perform s).result⟩]) (call.perform s).state)
    {history : List MadeCall} {s : Streams} (h : Reached history s) : inv history s := by
  induction h with
  | new => exact hstart []
  | configured c =>
    -- a configuration reserves its streams one after the other
    rw [Config.streams]
    induction c.internalStreams using List.reverseRecOn with
    | nil => exact hstart c.internalOperations
    | append_singleton names name ih =>
      rw [List.map_append, List.foldl_append]
      exact hcall (.reserve (.internal name [])) ih
  | call call _ ih => exact hcall call ih

end Streams

end StreamControl
