import Mathlib.Data.List.DropRight
import StreamControl.Proofs.Streams.Histories

/-!
# Where streams and events come from

Whatever calls are made, the streams in place are sound (`StreamState.Sound`) and are accounted for by
the history of the calls (`StreamState.Told`): each owes its owner to the last call that put it in
place, and its events, one by one and in order, to the calls that were sent to it since then.  Both
invariants are about one name at a time.  A call that passes a name keeps what is told of it
(`StreamState.Told.passes`); one that is addressed to it follows the rules of `StreamCall.Makes`.
-/

namespace StreamControl

/-! ## Soundness -/

/-- A payload fits a schema exactly if each entry names a declared column whose type accepts the
value. -/
theorem Schema.violations_eq_nil_iff {schema : Schema} {payload : List Column} :
    schema.violations payload = [] ↔
      ∀ c ∈ payload, ∃ d, schema.column? c.name = some d ∧ d.type.accepts c.value = true := by
  rw [violations, List.filterMap_eq_nil_iff]
  refine forall₂_congr fun c _ => ?_
  rw [violation?]
  rcases schema.column? c.name with _ | d
  · simp
  · simp

/-- What holds of a stream that is filed under a name. -/
structure StreamState.Sound (name : String) (stream : StreamState) : Prop where
  filed : stream.schema.name = name
  distinct : stream.schema.userDefined = true → (stream.schema.columns.map (·.name)).Nodup
  fitting : ∀ event ∈ stream.events, stream.schema.violations event = []

/-- What a call makes of a sound stream is sound. -/
theorem StreamCall.Makes.sound {call : StreamCall} {before after : Option StreamState}
    (h : call.Makes before after) (hbefore : ∀ stream ∈ before, stream.Sound call.stream) :
    ∀ stream ∈ after, stream.Sound call.stream := by
  intro stream hstream
  cases h with
  | reserved schema before =>
    obtain rfl := Option.some.inj hstream
    refine ⟨rfl, fun huser => ?_, fun event hevent => absurd hevent List.not_mem_nil⟩
    contradiction
  | created hdeclared hnodup =>
    obtain rfl := Option.some.inj hstream
    exact ⟨rfl, fun _ => hnodup, fun event hevent => absurd hevent List.not_mem_nil⟩
  | dropped name state => contradiction
  | @sent name state payload hfits =>
    obtain rfl := Option.some.inj hstream
    have hsound := hbefore state rfl
    refine ⟨hsound.filed, hsound.distinct, fun event hevent => ?_⟩
    -- the schema stays, so only the new event is to be checked
    rcases List.mem_append.1 hevent with hold | hnew
    · exact hsound.fitting event hold
    · obtain rfl := List.mem_singleton.1 hnew
      exact hfits

/-- A creation puts a user's stream without events in place. -/
theorem StreamCall.Makes.of_create {stream : String} {columns : List Column}
    {before after : Option StreamState} (h : (create stream columns).Makes before after) :
    ∃ declared, after = some ⟨.user stream declared, []⟩ := by
  cases h with
  | created => exact ⟨_, rfl⟩

/-- Every call keeps the streams sound. -/
theorem StreamCall.sound_perform (call : StreamCall) {s : Streams}
    (hsound : ∀ name, ∀ stream ∈ s.get? name, stream.Sound name) :
    ∀ name, ∀ stream ∈ (call.perform s).state.get? name, stream.Sound name := by
  intro name
  rcases call.perform_cases s with ⟨e, -, hstate⟩ | ⟨-, hmakes, hothers⟩
  · rw [hstate]
    exact hsound name
  · by_cases hname : call.stream = name
    · subst hname
      exact hmakes.sound (hsound call.stream)
    · rw [hothers name hname]
      exact hsound name

/-! ## What a history says about a name -/

/-- The last call that put a stream of this name in place. -/
def lastPlaced? (name : String) (history : List MadeCall) : Option MadeCall :=
  (history.filter (·.places name)).getLast?

/-- The last call that put a stream of this name in place or took one away. -/
def lastSettled? (name : String) (history : List MadeCall) : Option MadeCall :=
  (history.filter fun c => c.places name || c.removes name).getLast?

/-- The payloads sent to a stream since the last call that put it in place, oldest first. -/
def logged (name : String) (history : List MadeCall) : List StreamEvent :=
  (history.rtakeWhile fun c => !c.places name).filterMap (·.payload? name)

/-- One more call is the last of its kind, or changes nothing about which call is. -/
theorem getLast?_filter_concat (kind : MadeCall → Bool) (history : List MadeCall) (c : MadeCall) :
    ((history ++ [c]).filter kind).getLast? =
      if kind c = true then some c else (history.filter kind).getLast? := by
  rw [List.filter_append, List.filter_singleton]
  by_cases hkind : kind c = true
  · simp [hkind]
  · simp [hkind]

theorem lastPlaced?_concat (name : String) (history : List MadeCall) (c : MadeCall) :
    lastPlaced? name (history ++ [c]) =
      if c.places name = true then some c else lastPlaced? name history :=
  getLast?_filter_concat _ history c

theorem lastSettled?_concat (name : String) (history : List MadeCall) (c : MadeCall) :
    lastSettled? name (history ++ [c]) =
      if (c.places name || c.removes name) = true then some c else lastSettled? name history :=
  getLast?_filter_concat _ history c

theorem logged_concat (name : String) (history : List MadeCall) (c : MadeCall) :
    logged name (history ++ [c]) =
      if c.places name = true then [] else logged name history ++ (c.payload? name).toList := by
  unfold logged
  rw [List.rtakeWhile_concat]
  by_cases hplaces : c.places name = true
  · simp [hplaces]
  · rcases hpayload : c.payload? name with _ | payload
    · simp [hplaces, hpayload]
    · simp [hplaces, hpayload]

/-! ## What is told of a stream -/

/-- What is filed under a name is what the history says: nothing unless the last call that settled it
put a stream in place; and else a stream with the owner and the events that the history gives it. -/
def StreamState.Told (name : String) (history : List MadeCall) : Option StreamState → Prop
  | none => ∀ c ∈ lastSettled? name history, c.places name = false
  | some stream =>
    (∃ c, lastSettled? name history = some c ∧ c.places name = true) ∧
      (∃ c, lastPlaced? name history = some c ∧
        (stream.schema.userDefined = true ↔ ∃ columns, c.call = .create name columns)) ∧
      stream.events = logged name history

namespace StreamState.Told

variable {name : String} {history : List MadeCall}

/-- A call that leaves a stream alone changes nothing of what is told of it. -/
theorem passes {c : MadeCall} (hpasses : c.Passes name) {stream? : Option StreamState}
    (h : Told name history stream?) : Told name (history ++ [c]) stream? := by
  -- the last call that settled or placed the stream stays the last, and nothing is logged
  have hsettled : lastSettled? name (history ++ [c]) = lastSettled? name history := by
    rw [lastSettled?_concat, hpasses.places, hpasses.removes]
    exact if_neg Bool.false_ne_true
  have hplaced : lastPlaced? name (history ++ [c]) = lastPlaced? name history := by
    rw [lastPlaced?_concat, hpasses.places]
    exact if_neg Bool.false_ne_true
  have hlogged : logged name (history ++ [c]) = logged name history := by
    rw [logged_concat, hpasses.places, hpasses.payload, if_neg Bool.false_ne_true]
    exact List.append_nil _
  cases stream? with
  | none =>
    unfold Told
    rw [hsettled]
    exact h
  | some stream =>
    unfold Told
    rw [hsettled, hplaced, hlogged]
    exact h

/-- A call that puts a stream in place without events settles all that is told of it. -/
theorem placed {c : MadeCall} (hplaces : c.places name = true) {stream : StreamState}
    (howner : stream.schema.userDefined = true ↔ ∃ columns, c.call = .create name columns)
    (hevents : stream.events = []) : Told name (history ++ [c]) (some stream) := by
  refine ⟨⟨c, ?_, hplaces⟩, ⟨c, ?_, howner⟩, ?_⟩
  · rw [lastSettled?_concat, hplaces]
    rfl
  · rw [lastPlaced?_concat, if_pos hplaces]
  · rw [logged_concat, if_pos hplaces, hevents]

/-- What a successful call makes of its stream is told by the history with the call. -/
theorem made {call : StreamCall} {before after : Option StreamState} (hmakes : call.Makes before after)
    (h : Told call.stream history before) :
    Told call.stream (history ++ [⟨call, .ok ()⟩]) after := by
  -- one case for each kind of call that succeeds: what it makes of its own stream
  cases hmakes with
  | reserved schema before =>
    refine placed (beq_self_eq_true _) ⟨fun huser => ?_, fun ⟨columns, hcreate⟩ => ?_⟩ rfl
    · contradiction
    · contradiction
  | @created stream columns declared hdeclared hnodup =>
    exact placed (beq_self_eq_true _) ⟨fun _ => ⟨columns, rfl⟩, fun _ => rfl⟩ rfl
  | dropped stream state =>
    -- after a drop the last call that settled the name is the drop, which puts nothing in place
    intro c hc
    have hremoves : (MadeCall.mk (.drop stream) (.ok ())).removes stream = true :=
      beq_self_eq_true _
    rw [lastSettled?_concat, StreamCall.stream, hremoves, Bool.or_true, if_pos rfl] at hc
    obtain rfl := Option.some.inj hc
    rfl
  | @sent stream state payload hfits =>
    obtain ⟨⟨c, hc, hplaces⟩, ⟨c', hc', howner⟩, hevents⟩ := h
    refine ⟨⟨c, ?_, hplaces⟩, ⟨c', ?_, howner⟩, ?_⟩
    · rw [lastSettled?_concat]
      exact hc
    · rw [lastPlaced?_concat]
      exact hc'
    · have hpayload : (MadeCall.mk (.send stream payload) (.ok ())).payload? stream = some payload :=
        if_pos rfl
      dsimp only
      rw [logged_concat, StreamCall.stream, hpayload, hevents]
      rfl

end StreamState.Told

/-- Every call keeps the history right. -/
theorem StreamCall.told_perform (call : StreamCall) {s : Streams} {history : List MadeCall}
    (htold : ∀ name, StreamState.Told name history (s.get? name)) :
    ∀ name, StreamState.Told name (history ++ [⟨call, (call.perform s).result⟩])
      ((call.perform s).state.get? name) := by
  intro name
  -- a refused call passes every stream, a successful one all but its own
  rcases call.perform_cases s with ⟨e, hgave, hstate⟩ | ⟨hgave, hmakes, hothers⟩
  · rw [hstate]
    exact (htold name).passes (MadeCall.passes_of_error hgave)
  · by_cases hname : call.stream = name
    · subst hname
      rw [hgave]
      exact (htold call.stream).made hmakes
    · rw [hothers name hname]
      exact (htold name).passes (MadeCall.passes_of_ne hname)

namespace Streams

theorem Reached.sound {history : List MadeCall} {s : Streams} (h : Reached history s) :
    ∀ name, ∀ stream ∈ s.get? name, stream.Sound name := by
  refine Reached.rule (fun _ s => ∀ name, ∀ stream ∈ s.get? name, stream.Sound name) ?_ ?_ h
  · intro internalOperations name stream hstream
    rw [get?_empty] at hstream
    contradiction
  · intro history s call hsound
    exact call.sound_perform hsound

theorem Reached.told {history : List MadeCall} {s : Streams} (h : Reached history s) :
    ∀ name, StreamState.Told name history (s.get? name) := by
  refine Reached.rule (fun history s => ∀ name, StreamState.Told name history (s.get? name)) ?_ ?_ h
  · intro internalOperations name
    rw [get?_empty]
    intro c hc
    contradiction
  · intro history s call htold
    exact call.told_perform htold

/-! ## Main results -/

/-- **The streams stay sound, and a refused call changes nothing.**  Take any history of calls, from no
streams or from those of a configuration.  Every stream is filed under the name in its schema; a
stream of a user has distinct columns; every event fits the schema that the stream has now; the
stream is a user's exactly if the last call that put it in place created it.  A further call that is
refused leaves everything as it was. -/
theorem invariants_of_reached {history : List MadeCall} {s : Streams} (h : Reached history s) :
    (∀ name stream, s.get? name = some stream →
      stream.schema.name = name ∧
      (stream.schema.userDefined = true → (stream.schema.columns.map (·.name)).Nodup) ∧
      (∀ event ∈ stream.events, stream.schema.fits event = true ∧
        ∀ c ∈ event, ∃ d, stream.schema.column? c.name = some d ∧
          d.type.accepts c.value = true) ∧
      ∃ c, lastPlaced? name history = some c ∧
        (stream.schema.userDefined = true ↔ ∃ columns, c.call = .create name columns)) ∧
    ∀ (call : StreamCall) e, (call.perform s).result = .error e → (call.perform s).state = s := by
  constructor
  · intro name stream hstream
    have hsound := h.sound name stream hstream
    have htold := h.told name
    rw [hstream] at htold
    -- soundness comes from the streams alone, ownership from the history
    obtain ⟨-, howner, -⟩ := htold
    refine ⟨hsound.filed, hsound.distinct, fun event hevent => ?_, howner⟩
    have hfits := hsound.fitting event hevent
    exact ⟨List.isEmpty_iff.2 hfits, Schema.violations_eq_nil_iff.1 hfits⟩
  · intro call e hrefused
    rcases call.perform_cases s with ⟨e', -, hstate⟩ | ⟨hgave, -⟩
    · exact hstate
    · rw [hgave] at hrefused
      contradiction

/-- A user's stream that the engine takes over: the stream and its events are no longer the user's,
and it cannot be created again. -/
theorem invariants_of_reached_taken_over :
    let calls : List StreamCall := [.create "sensors" [.declaring "temp" .double],
      .send "sensors" [.carrying "temp" (.integer 20)],
      .reserve (.user "sensors" [⟨"temp", .string⟩]),
      .send "sensors" [.carrying "temp" (.text "warm")]]
    let reached := performAll calls ([], .empty [])
    let stream : StreamState :=
      ⟨.internal "sensors" [⟨"temp", .string⟩], [[.carrying "temp" (.text "warm")]]⟩
    let again := StreamCall.create "sensors" []
    Reached reached.1 reached.2 ∧
      (reached.2.get? "sensors" = some stream ∧ stream.schema.name = "sensors" ∧
        (∀ event ∈ stream.events, stream.schema.fits event = true) ∧
        ∃ c, lastPlaced? "sensors" reached.1 = some c ∧
          (stream.schema.userDefined = true ↔ ∃ columns, c.call = .create "sensors" columns)) ∧
      (again.perform reached.2).result = .error (.streamAlreadyExists "sensors") ∧
      (again.perform reached.2).state = reached.2 := by
  intro calls reached stream again
  have hreached : Reached reached.1 reached.2 :=
    Reached.performAll (t := ([], .empty [])) .new calls
  have hstream : reached.2.get? "sensors" = some stream := by
    dsimp only [reached, calls, stream]
    rfl
  have hrefused : (again.perform reached.2).result = .error (.streamAlreadyExists "sensors") := by
    dsimp only [reached, calls, again]
    rfl
  obtain ⟨hsound, hatomic⟩ := invariants_of_reached hreached
  obtain ⟨hfiled, -, hfitting, howner⟩ := hsound "sensors" stream hstream
  exact ⟨hreached, ⟨hstream, hfiled, fun event hevent => (hfitting event hevent).1, howner⟩,
    hrefused, hatomic again _ hrefused⟩

/-- **No event is lost, added, altered or moved.**  After any history of calls the events of a stream
are the payloads of the successful calls that were sent to it since the last call that put it in
place, in order; and none if there is no such stream, which is so exactly unless the last call that
settled its name put a stream in place.  Of further calls, neither one addressed to another stream
nor one that is refused changes the events, and one that creates the stream starts without any. -/
theorem events_of_reached {history : List MadeCall} {s : Streams} (h : Reached history s)
    (name : String) :
    s.events name = (if s.contains name then logged name history else []) ∧
      (s.contains name = true ↔
        ∃ c, lastSettled? name history = some c ∧ c.places name = true) ∧
      ∀ call : StreamCall, let ran := call.perform s
        (call.stream ≠ name → ran.state.events name = s.events name) ∧
        (∀ e, ran.result = .error e → ran.state.events name = s.events name) ∧
        ∀ columns, call = .create name columns → ran.result = .ok () →
          ran.state.events name = [] := by
  have htold := h.told name
  refine ⟨?_, ?_, ?_⟩
  · rcases hstream : s.get? name with _ | stream
    · simp [events, contains, hstream]
    · rw [hstream] at htold
      obtain ⟨-, -, hevents⟩ := htold
      simp [events, contains, hstream, hevents]
  · rcases hstream : s.get? name with _ | stream
    · rw [hstream] at htold
      -- without a stream the name was never settled, or last by a call that placed none
      have hgone : s.contains name = false := by simp [contains, hstream]
      rw [hgone]
      constructor
      · intro hcontained
        contradiction
      · rintro ⟨c, hsettled, hplaces⟩
        rw [htold c hsettled] at hplaces
        contradiction
    · rw [hstream] at htold
      have hcontained : s.contains name = true := by simp [contains, hstream]
      exact ⟨fun _ => htold.1, fun _ => hcontained⟩
  · intro call ran
    rcases call.perform_cases s with ⟨e, hgave, hstate⟩ | ⟨hgave, hmakes, hothers⟩
    · have hkept : ran.state.events name = s.events name := by rw [hstate]
      refine ⟨fun _ => hkept, fun _ _ => hkept, fun columns _ hcreated => ?_⟩
      rw [hgave] at hcreated
      contradiction
    · refine ⟨fun hname => ?_, fun e hrefused => ?_, ?_⟩
      · rw [events, events, hothers name hname]
      · rw [hgave] at hrefused
        contradiction
      · rintro columns rfl -
        -- a creation leaves a stream without events
        obtain ⟨declared, hcreated⟩ := hmakes.of_create
        rw [events, show ran.state.get? name = _ from hcreated]
        rfl

/-- A stream that is dropped and created again, with calls in between that are refused or addressed to
another stream: only what was sent to the new one is there. -/
theorem events_of_reached_again :
    let warm : StreamEvent := [.carrying "temp" (.integer 30), .carrying "temp" .null]
    let calls : List StreamCall := [.create "sensors" [.declaring "temp" .double],
      .send "sensors" [.carrying "temp" (.integer 20)], .drop "sensors",
      .send "sensors" [.carrying "temp" (.integer 21)], .create "other" [],
      .create "sensors" [.declaring "temp" .double], .send "other" [],
      .send "sensors" [.carrying "humidity" (.integer 40)], .send "sensors" warm]
    let reached := performAll calls ([], .empty [])
    Reached reached.1 reached.2 ∧ logged "sensors" reached.1 = [warm] ∧
      reached.2.events "sensors" = [warm] ∧
      ("other" ≠ "sensors" ∧
        ((StreamCall.drop "other").perform reached.2).state.events "sensors" = [warm]) ∧
      ∃ c, lastSettled? "sensors" reached.1 = some c ∧ c.places "sensors" = true := by
  intro warm calls reached
  have hreached : Reached reached.1 reached.2 :=
    Reached.performAll (t := ([], .empty [])) .new calls
  have hlogged : logged "sensors" reached.1 = [warm] := by
    dsimp only [reached, calls, warm]
    rfl
  have hcontained : reached.2.contains "sensors" = true := by
    dsimp only [reached, calls, warm]
    rfl
  obtain ⟨hevents, hsettled, hkept⟩ := events_of_reached hreached "sensors"
  rw [hcontained, if_pos rfl, hlogged] at hevents
  have hother : "other" ≠ "sensors" := by decide
  exact ⟨hreached, hlogged, hevents,
    ⟨hother, ((hkept (.drop "other")).1 hother).trans hevents⟩, hsettled.1 hcontained⟩

end Streams

end StreamControl
