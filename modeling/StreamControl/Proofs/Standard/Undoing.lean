import StreamControl.Proofs.Standard.Definitions
import StreamControl.Proofs.Standard.Insertions
import StreamControl.Proofs.Standard.Locality

/-!
# A drop undoes a creation

A stream that is created, filled and dropped leaves nothing behind, whatever was sent to it in the
meantime, valid or not, as long as no message drops it.  Two things carry this through the time
between (`Streams.Hosts`): the stream has the schema that the creation gave it, which is a user's, and
everything else is as it was before.  A message for the stream keeps both (`Wiring.hosts_deliver`).
-/

namespace StreamControl

variable {σ : Type}

/-! ## Deliveries -/

namespace Standard

/-- A message, with the standard processor that it is given to. -/
inductive Delivery
  | define (m : Message)
  | insert (m : Message)

def Delivery.message : Delivery → Message
  | define m | insert m => m

/-- The message creates the stream of a name or sends an event to it. -/
structure Delivery.Fills (name : String) (d : Delivery) : Prop where
  operation : d.message.Names (some Operation.create) ∨ IsInsert d.message
  stream : d.message.streamName = some name

instance (name : String) (d : Delivery) : Decidable (d.Fills name) :=
  decidable_of_iff ((d.message.Names (some Operation.create) ∨ IsInsert d.message) ∧
    d.message.streamName = some name) ⟨fun h => ⟨h.1, h.2⟩, fun h => ⟨h.operation, h.stream⟩⟩

namespace Wiring

/-- The processor that a message is given to. -/
def receiver (w : Wiring σ) : Delivery → Processor σ
  | .define _ => w.definition
  | .insert _ => w.insert

/-- The state after messages were given to the processors, one after the other. -/
def deliverAll (w : Wiring σ) (deliveries : List Delivery) (s : σ) : σ :=
  deliveries.foldl (fun s d => ((w.receiver d).handle d.message s).state) s

end Wiring

end Standard

/-! ## While the stream exists -/

/-- A stream of a user was put beside others: it has a schema of its own, and all the others are as
they were. -/
structure Streams.Hosts (name : String) (declared : List Declaration) (before after : Streams) :
    Prop where
  nonempty : name ≠ ""
  free : before.get? name = none
  own : after.schema? name = some (.user name declared)
  others : after.AgreeOn {name}ᶜ before

namespace Streams.Hosts

open Standard

variable {name : String} {declared : List Declaration} {before after : Streams} {m : Message}

theorem contains (h : Hosts name declared before after) : after.contains name = true := by
  have hschema : (after.schema? name).isSome = true := by rw [h.own]; rfl
  rwa [Streams.schema?, Option.isSome_map] at hschema

theorem isUserDefined (h : Hosts name declared before after) :
    after.isUserDefined name = true := by
  rw [Streams.isUserDefined, h.own]
  rfl

/-- No operation is withheld from the stream of a user. -/
theorem reaches (h : Hosts name declared before after) (hname : m.streamName = some name) :
    Reaches m after name := by
  refine ⟨hname, h.nonempty, ?_⟩
  rintro ⟨⟨found, hfound, hengine⟩, -⟩
  have huser := h.isUserDefined
  rw [Streams.isUserDefined, Streams.schema?, hfound] at huser
  rw [Option.map_some, Option.any_some, hengine] at huser
  contradiction

/-- A creation that is answered with `OK` puts its stream beside the others. -/
theorem of_create {outcome : Outcome} {t : Streams} (hcreate : m.Names (some Operation.create))
    (hname : m.streamName = some name) (h : Defines m before outcome (some ⟨.ok, none⟩) t) :
    ∃ declared, Hosts name declared before t := by
  generalize hreply : (some ⟨.ok, none⟩ : Option Reply) = reply? at h
  cases h with
  | ignored => contradiction
  | notCreated =>
    -- whoever is refused is told a reason
    obtain ⟨-, hreason⟩ := Reply.mk.inj (Option.some.inj hreply)
    contradiction
  | notDropped hdrop => exact absurd (hcreate.eq hdrop) (by decide)
  | @created stream declared _ _ hreaches hfree _ _ hoperations hstreams =>
    obtain rfl := Option.some.inj (hreaches.named.symm.trans hname)
    refine ⟨declared, hreaches.nonempty, Streams.get?_eq_none_of_contains hfree, ?_, ?_,
      hoperations⟩
    · rw [Streams.schema?, hstreams, if_pos rfl]
      rfl
    · intro other hother
      have hne : other ≠ stream := hother
      rw [hstreams, if_neg hne]
  | dropped hdrop => exact absurd (hcreate.eq hdrop) (by decide)

/-- Another creation is refused because the stream exists. -/
theorem create_refused (h : Hosts name declared before after)
    (hcreate : m.Names (some Operation.create)) (hname : m.streamName = some name) :
    Defines m after (.rejected ⟨.streamAlreadyExists, "stream " ++ name ++ " already exists"⟩)
      (some ⟨.streamAlreadyExists, some ("stream " ++ name ++ " already exists")⟩) after :=
  .notCreated hcreate (.taken (h.reaches hname) h.contains)

/-- An event changes at most the events of the stream. -/
theorem after_insert (h : Hosts name declared before after) (hname : m.streamName = some name) :
    Hosts name declared before (insertPolicy.after m after) where
  nonempty := h.nonempty
  free := h.free
  own := by rw [schema?_after_insert, h.own]
  others := by
    have hwithin : m.Within {name}ᶜᶜ := by
      intro stream hstream hother
      obtain ⟨hnamed, -⟩ := stream?_eq_some_iff.1 hstream
      exact hother (Option.some.inj (hnamed.symm.trans hname))
    exact (local_insertPolicy.spares after hwithin).trans h.others

/-- A drop takes the stream away and leaves what there was before. -/
theorem drop_done (h : Hosts name declared before after) (hdrop : m.Names (some Operation.drop))
    (hname : m.streamName = some name) :
    Defines m after (.completed true) (some ⟨.ok, none⟩) before := by
  refine .dropped hdrop (h.reaches hname) h.isUserDefined h.others.operations.symm ?_
  intro other
  -- the name was free before the creation
  by_cases hother : other = name
  · rw [if_pos hother, hother, h.free]
  · rw [if_neg hother, h.others.streams other hother]

end Streams.Hosts

/-! ## Main result -/

namespace Standard

namespace Wiring

variable {w : Wiring σ} {name : String} {declared : List Declaration} {before : Streams} {s : σ}

/-- What the rules say of a message is what the processor does. -/
theorem definition_ends (w : Wiring σ) {m : Message} {outcome : Outcome} {reply? : Option Reply}
    {t : Streams} :
    (w.definition.fate m s = .ended (outcome, reply?) ∧
        w.streams (w.definition.handle m s).state = t) ↔
      Defines m (w.streams s) outcome reply? t := by
  rw [w.follows_definition.ended_iff]
  exact (Policy.rules_iff Defines.policy_eq exists_defines).symm

/-- A message for the stream keeps it in place and the others as they are. -/
theorem hosts_deliver {d : Delivery} (hfills : d.Fills name)
    (h : Streams.Hosts name declared before (w.streams s)) :
    Streams.Hosts name declared before
      (w.streams ((w.receiver d).handle d.message s).state) := by
  cases d with
  | define m =>
    have hname : m.streamName = some name := hfills.stream
    -- a creation is refused, and an event is not for this processor
    have hkept : w.streams (w.definition.handle m s).state = w.streams s := by
      rcases hfills.operation with hcreate | hinsert
      · exact (w.definition_ends.2 (h.create_refused hcreate hname)).2
      · have hnot : ¬IsDefinition m := fun hdefines => hdefines.not_isInsert hinsert
        exact (w.definition_ends.2 (.ignored hnot)).2
    change Streams.Hosts name declared before (w.streams (w.definition.handle m s).state)
    rw [hkept]
    exact h
  | insert m =>
    have hafter : w.streams (w.insert.handle m s).state = insertPolicy.after m (w.streams s) :=
      (w.follows_insert m s).2
    change Streams.Hosts name declared before (w.streams (w.insert.handle m s).state)
    rw [hafter]
    exact h.after_insert hfills.stream

theorem hosts_deliverAll {deliveries : List Delivery} (hfills : ∀ d ∈ deliveries, d.Fills name)
    (h : Streams.Hosts name declared before (w.streams s)) :
    Streams.Hosts name declared before (w.streams (w.deliverAll deliveries s)) := by
  induction deliveries generalizing s with
  | nil => exact h
  | cons d deliveries ih =>
    obtain ⟨hfirst, hrest⟩ := List.forall_mem_cons.1 hfills
    exact ih hrest (hosts_deliver hfirst h)

/-- **A drop undoes a creation.**  Let the processor that creates and drops streams answer a creation
with `OK`, and let then any messages that create the same stream or send events to it, valid or not,
be given to the two processors.  Every such creation that reaches the first processor is rejected
because the stream exists; a drop of the stream is answered with `OK`; and then the streams are what
they were before the creation, with their schemas, owners and events. -/
theorem drop_undoes_creation (w : Wiring σ) (s : σ) {name : String} {creation drop : Message}
    (hcreate : creation.Names (some Operation.create)) (hcreated : creation.streamName = some name)
    (hok : (w.definition.fate creation s).replies = [.ok])
    {deliveries : List Delivery} (hfills : ∀ d ∈ deliveries, d.Fills name)
    (hdrop : drop.Names (some Operation.drop)) (hdropped : drop.streamName = some name) :
    let created := (w.definition.handle creation s).state
    let filled := w.deliverAll deliveries created
    (∀ before m after, deliveries = before ++ .define m :: after →
      m.Names (some Operation.create) →
      let detail := "stream " ++ name ++ " already exists"
      w.definition.fate m (w.deliverAll before created) =
        .ended (.rejected ⟨.streamAlreadyExists, detail⟩,
          some ⟨.streamAlreadyExists, some detail⟩)) ∧
      w.definition.fate drop filled = .ended (.completed true, some .ok) ∧
      w.streams (w.definition.handle drop filled).state = w.streams s := by
  intro created filled
  -- only the rule of a successful creation is answered with `OK` alone
  obtain ⟨declared, hhosts⟩ : ∃ declared,
      Streams.Hosts name declared (w.streams s) (w.streams created) := by
    obtain ⟨outcome, reply?, t, hdefines⟩ := exists_defines creation (w.streams s)
    obtain ⟨hfate, hstate⟩ := w.definition_ends.2 hdefines
    rw [hfate] at hok
    obtain rfl := Option.toList_eq_singleton_iff.1 hok
    rw [← hstate] at hdefines
    exact Streams.Hosts.of_create hcreate hcreated hdefines
  -- the stream is there from its creation to the drop, whatever comes between
  constructor
  · intro before m after hsplit hagain detail
    rw [hsplit] at hfills
    obtain ⟨hbefore, hrest⟩ := List.forall_mem_append.1 hfills
    obtain ⟨hm, -⟩ := List.forall_mem_cons.1 hrest
    have hthere := hosts_deliverAll hbefore hhosts
    exact (w.definition_ends.2 (hthere.create_refused hagain hm.stream)).1
  · have hthere := hosts_deliverAll hfills hhosts
    exact w.definition_ends.2 (hthere.drop_done hdrop hdropped)

/-- A stream that takes in two events beside another stream.  An event that does not fit, a second
creation and messages for the wrong processor change nothing on the way. -/
theorem drop_undoes_creation_beside :
    let w := engine Config.default
    let start := Engine.new Config.default (.still 0)
    let s := (w.definition.handle (.addressed "CREATE" "other") start).state
    let creation := (Message.addressed "Create" "orders").carrying [.declaring "id" .integer]
    let again := Message.addressed "create" "orders"
    let event := (Message.addressed "insert" "orders").carrying [.carrying "id" (.integer 7)]
    let misfit := (Message.addressed "INSERT" "orders").carrying [.carrying "total" .null]
    let drop := Message.addressed "dRoP" "orders"
    let deliveries : List Delivery := [.insert event, .define event, .insert misfit, .define again,
      .insert again, .insert event]
    let created := (w.definition.handle creation s).state
    let filled := w.deliverAll deliveries created
    creation.Names (some Operation.create) ∧ creation.streamName = some "orders" ∧
      (w.definition.fate creation s).replies = [.ok] ∧
      (∀ d ∈ deliveries, d.Fills "orders") ∧
      drop.Names (some Operation.drop) ∧ drop.streamName = some "orders" ∧
      (w.streams filled).events "orders" = [event.columns, event.columns] ∧
      w.definition.fate again (w.deliverAll [.insert event, .define event, .insert misfit] created) =
        .ended (.rejected ⟨.streamAlreadyExists, "stream orders already exists"⟩,
          some ⟨.streamAlreadyExists, some "stream orders already exists"⟩) ∧
      w.definition.fate drop filled = .ended (.completed true, some .ok) ∧
      w.streams (w.definition.handle drop filled).state = w.streams s := by
  intro w start s creation again event misfit drop deliveries created filled
  have hcreate : creation.Names (some Operation.create) := by decide
  have hok : (w.definition.fate creation s).replies = [.ok] := by decide +kernel
  have hfills : ∀ d ∈ deliveries, d.Fills "orders" := by decide
  have hdrop : drop.Names (some Operation.drop) := by decide
  have hevents : (w.streams filled).events "orders" = [event.columns, event.columns] := by
    decide +kernel
  obtain ⟨hagain, hdropped, hundone⟩ :=
    w.drop_undoes_creation s hcreate rfl hok hfills hdrop rfl
  exact ⟨hcreate, rfl, hok, hfills, hdrop, rfl, hevents,
    hagain [.insert event, .define event, .insert misfit] again [.insert again, .insert event] rfl
      (by decide), hdropped, hundone⟩

end Wiring

end Standard

end StreamControl
