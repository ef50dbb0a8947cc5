import StreamControl.Proofs.Dispatch.Trails
import StreamControl.Proofs.Standard.Verdicts

/-!
# The engine's own streams are out of reach

The streams that a configuration reserves for the engine answer to messages like all others, and the
configuration may even let them admit `CREATE`, `DROP` and `INSERT`.  They stay in place all the same:
a stream that exists is not created, and one that no user created is not dropped.  What can change is
their events, and only if they admit `INSERT` (`Registry.reserved_streams_kept`).

The invariant is `Streams.Reserves`.  It holds of the streams of a configuration, and every change
that `Standard.Obeys` allows keeps it.
-/

namespace StreamControl

variable {σ : Type} {part : Part σ Streams}

/-! ## The invariant -/

/-- No entry of a configuration lets the engine's own streams admit `INSERT`. -/
def Config.WithoutInsert (c : Config) : Prop :=
  ∀ operation ∈ c.internalOperations, Operation.same operation Operation.insert = false

namespace Streams

/-- The streams that a configuration reserves are in place, without columns and owned by the engine;
they have no events unless they may be sent some. -/
structure Reserves (c : Config) (s : Streams) : Prop where
  operations : s.internalOperations = c.internalOperations
  inPlace : ∀ name ∈ c.internalStreams, ∃ events,
    s.get? name = some ⟨.internal name [], events⟩ ∧ (c.WithoutInsert → events = [])

namespace Reserves

variable {c : Config} {s t : Streams} {name : String}

theorem schema? (h : s.Reserves c) (hname : name ∈ c.internalStreams) :
    s.schema? name = some (.internal name []) := by
  obtain ⟨events, hget, -⟩ := h.inPlace name hname
  rw [Streams.schema?, hget]
  rfl

theorem contains (h : s.Reserves c) (hname : name ∈ c.internalStreams) :
    s.contains name = true := by
  obtain ⟨events, hget, -⟩ := h.inPlace name hname
  rw [Streams.contains, hget]
  rfl

theorem isUserDefined (h : s.Reserves c) (hname : name ∈ c.internalStreams) :
    s.isUserDefined name = false := by
  rw [Streams.isUserDefined, h.schema? hname]
  rfl

theorem events (h : s.Reserves c) (hname : name ∈ c.internalStreams) (hwithout : c.WithoutInsert) :
    s.events name = [] := by
  obtain ⟨events, hget, hnone⟩ := h.inPlace name hname
  rw [Streams.events, hget]
  exact hnone hwithout

/-- A reserved stream admits what the configuration lists and nothing else. -/
theorem admits_iff (h : s.Reserves c) (hname : name ∈ c.internalStreams) (operation : String) :
    s.admits name operation = true ↔
      ∃ listed ∈ c.internalOperations, Operation.same operation listed = true := by
  rw [Streams.admits, h.schema? hname, h.operations]
  exact List.any_eq_true

end Reserves

end Streams

/-! ## The streams of a configuration -/

namespace Config

theorem internalOperations_streams (c : Config) :
    c.streams.internalOperations = c.internalOperations := by
  rw [streams]
  induction c.internalStreams using List.reverseRecOn with
  | nil => rfl
  | append_singleton names name ih =>
    rw [List.foldl_append]
    exact ih

/-- An engine begins with the streams that its configuration names and no others. -/
theorem get?_streams (c : Config) (name : String) :
    c.streams.get? name =
      if name ∈ c.internalStreams then some ⟨.internal name [], []⟩ else none := by
  rw [streams]
  induction c.internalStreams using List.reverseRecOn with
  | nil => exact Streams.get?_empty _ name
  | append_singleton names last ih =>
    rw [List.foldl_append, List.foldl_cons, List.foldl_nil, Streams.get?_reserve, ih]
    by_cases hlast : last = name
    · subst hlast
      simp [Schema.internal]
    · simp [Schema.internal, hlast, Ne.symm hlast]

theorem reserves_streams (c : Config) : c.streams.Reserves c where
  operations := c.internalOperations_streams
  inPlace := by
    intro name hname
    exact ⟨[], by rw [get?_streams, if_pos hname], fun _ => rfl⟩

end Config

/-! ## What messages keep -/

/-- The operation of a message that names a command is that command, up to the case of letters. -/
theorem Message.Names.fold_operationOrEmpty {m : Message} {command : String}
    (h : m.Names (some command)) : Operation.fold m.operationOrEmpty = Operation.fold command := by
  obtain ⟨operation, hoperation, hnamed⟩ := Message.names_iff.1 h
  rw [operationOrEmpty, hoperation]
  exact Operation.same_iff.1 hnamed

namespace Streams.Reserves

variable {c : Config} {s t : Streams}

/-- A change of a stream that is not reserved keeps those that are. -/
theorem of_others {stream : String} (h : s.Reserves c) (hstream : stream ∉ c.internalStreams)
    (hoperations : t.internalOperations = s.internalOperations)
    (hothers : ∀ other, stream ≠ other → t.get? other = s.get? other) : t.Reserves c where
  operations := hoperations.trans h.operations
  inPlace := by
    intro name hname
    have hother : stream ≠ name := fun heq => hstream (heq ▸ hname)
    rw [hothers name hother]
    exact h.inPlace name hname

/-- Sending adds to the events of a reserved stream at most, and to those only if the configuration
lists the operation. -/
theorem of_send {m : Message} {stream : String} (h : s.Reserves c)
    (hnames : m.Names (some Operation.insert))
    (hadmits : s.admits stream m.operationOrEmpty = true)
    (hsend : s.send stream m.columns = .ok t) : t.Reserves c where
  operations := by
    obtain ⟨state, -, -, rfl⟩ := send_eq_ok_iff.1 hsend
    exact h.operations
  inPlace := by
    intro name hname
    obtain ⟨events, hget, hnone⟩ := h.inPlace name hname
    rw [get?_send hsend]
    by_cases hstream : stream = name
    · subst hstream
      refine ⟨events ++ [m.columns], by rw [if_pos rfl, hget]; rfl, fun hwithout => ?_⟩
      -- the operation that the stream admits is `INSERT`
      obtain ⟨listed, hlisted, hsame⟩ := (h.admits_iff hname _).1 hadmits
      have hlisted' := hwithout listed hlisted
      have hinsert : Operation.same listed Operation.insert = true :=
        Operation.same_iff.2 ((Operation.same_iff.1 hsame).symm.trans hnames.fold_operationOrEmpty)
      rw [hlisted'] at hinsert
      contradiction
    · rw [if_neg hstream]
      exact ⟨events, hget, hnone⟩

/-- Whatever a message can make of the streams, the reserved ones stay in place. -/
theorem of_obeys {m : Message} (h : s.Reserves c) (hobeys : Standard.Obeys m s t) :
    t.Reserves c := by
  cases hobeys with
  | ignored => exact h
  | @created stream _ _ _ _ hfree hcreate =>
    -- a stream that is created was free, one that is dropped was a user's: no reserved one is
    -- either
    have hstream : stream ∉ c.internalStreams := by
      intro hmem
      rw [h.contains hmem] at hfree
      contradiction
    obtain ⟨declared, -, -, -, hafter⟩ := create_eq_ok_iff.1 hcreate
    refine h.of_others hstream ?_ (StreamCall.makes_create hcreate).2
    rw [hafter, internalOperations_install]
  | @dropped stream _ _ _ _ hown hdrop =>
    have hstream : stream ∉ c.internalStreams := by
      intro hmem
      rw [h.isUserDefined hmem] at hown
      contradiction
    obtain ⟨-, hafter⟩ := drop_eq_ok_iff.1 hdrop
    refine h.of_others hstream ?_ (StreamCall.makes_drop hdrop).2
    rw [hafter]
  | inserted hnames _ hadmits hsend => exact h.of_send hnames hadmits hsend

end Streams.Reserves

/-! ## The standard registry -/

namespace Standard

theorem serves_registry (config : Config) :
    ∀ p ∈ (registry config).processors, Serves Engine.streamsPart p := by
  intro p hp
  simp only [registry, List.mem_cons, List.not_mem_nil, or_false] at hp
  rcases hp with rfl | rfl
  · exact .definition _
  · exact .insert _ _

/-- An engine keeps its replies apart from its streams. -/
theorem leaves_registry (config : Config) : ∀ p ∈ (registry config).processors, ∀ m reply,
    (p.sink m reply).Leaves Engine.streamsPart.get := by
  intro p hp m reply s
  simp only [registry, List.mem_cons, List.not_mem_nil, or_false] at hp
  rcases hp with rfl | rfl
  · rfl
  · have hsink : (insert (Streams.service Engine.streamsPart) config
        (TimedStore.service Engine.storePart)).sink =
          insertSink config (TimedStore.service Engine.storePart) := rfl
    rw [hsink, insertSink]
    -- a sink that stores writes to another part of the engine, one that logs writes nothing
    by_cases hstored : config.acknowledgeInserts = true
    · rw [if_pos hstored]
      rfl
    · rw [if_neg hstored]
      rfl

end Standard

/-! ## Main result -/

/-- **Messages cannot tamper with the streams of the engine.**  Let a registry hold the standard
processors over the streams of a configuration, with sinks that leave the streams alone.  Whatever
batches are dispatched, after every message each reserved stream exists, is not a user's and has the
schema with which it was registered; and if the configuration does not list `INSERT`, in any case, its
events are those it had at the start. -/
theorem Registry.reserved_streams_kept (hpart : ∀ s t, part.get (part.set s t) = t)
    {config : Config} {r : Registry σ} (hserves : ∀ p ∈ r.processors, Standard.Serves part p)
    (hsinks : ∀ p ∈ r.processors, ∀ m reply, (p.sink m reply).Leaves part.get)
    (batches : List (List Message)) {s : σ} (hstart : part.get s = config.streams) :
    ∀ t ∈ r.trail batches s, ∀ name ∈ config.internalStreams,
      (part.get t).contains name = true ∧
      (part.get t).isUserDefined name = false ∧
      (part.get t).schema? name = some (.internal name []) ∧
      ((∀ operation ∈ config.internalOperations,
          Operation.same operation Operation.insert = false) →
        (part.get t).events name = (part.get s).events name) := by
  have hreserves : (part.get s).Reserves config := by
    rw [hstart]
    exact config.reserves_streams
  -- one message of one processor keeps the reserved streams; the trail is made of such steps
  have hkeeps : ∀ p ∈ r.processors, ∀ m,
      (p.handle m).Keeps fun t => (part.get t).Reserves config := by
    intro p hp m t ht
    exact ht.of_obeys (Standard.obeys_handle hpart (hserves p hp) (hsinks p hp) m t)
  intro t ht name hname
  have hafter := keeps_trail hkeeps batches hreserves t ht
  refine ⟨hafter.contains hname, hafter.isUserDefined hname, hafter.schema? hname, ?_⟩
  intro hwithout
  rw [hafter.events hname hwithout, hreserves.events hname hwithout]

/-- A configuration that lets its own stream admit creating and dropping: of the three commands sent to
it none has an effect, while a user's stream is created and fed beside it. -/
theorem Registry.reserved_streams_kept_permissive :
    let config : Config :=
      { Config.default with internalStreams := ["audit"], internalOperations := ["create", "Drop"] }
    let r := Standard.registry config
    let batches : List (List Message) :=
      [[.addressed "DROP" "audit", .addressed "CREATE" "audit", .addressed "INSERT" "audit"],
        [.addressed "CREATE" "orders", .addressed "INSERT" "orders"]]
    let s := Engine.new config (.still 0)
    (∀ s t, Engine.streamsPart.get (Engine.streamsPart.set s t) = t) ∧
      (∀ p ∈ r.processors, Standard.Serves Engine.streamsPart p) ∧
      (∀ p ∈ r.processors, ∀ m reply, (p.sink m reply).Leaves Engine.streamsPart.get) ∧
      s.streams = config.streams ∧
      (∀ operation ∈ config.internalOperations,
        Operation.same operation Operation.insert = false) ∧
      (∀ t ∈ r.trail batches s,
        t.streams.contains "audit" = true ∧ t.streams.isUserDefined "audit" = false ∧
          t.streams.schema? "audit" = some (.internal "audit" []) ∧
          t.streams.events "audit" = s.streams.events "audit") ∧
      (r.trail batches s).getLast?.map (·.streams.events "orders") = some [[]] := by
  intro config r batches s
  have hpart : ∀ s t, Engine.streamsPart.get (Engine.streamsPart.set s t) = t := fun _ _ => rfl
  have hserves := Standard.serves_registry config
  have hsinks := Standard.leaves_registry config
  have hwithout : ∀ operation ∈ config.internalOperations,
      Operation.same operation Operation.insert = false := by decide
  have hkept := reserved_streams_kept hpart hserves hsinks batches (s := s) rfl
  refine ⟨hpart, hserves, hsinks, rfl, hwithout, ?_, by dsimp only [config, r, batches, s]; rfl⟩
  intro t ht
  obtain ⟨hcontains, hown, hschema, hevents⟩ := hkept t ht "audit" List.mem_cons_self
  exact ⟨hcontains, hown, hschema, hevents hwithout⟩

end StreamControl
