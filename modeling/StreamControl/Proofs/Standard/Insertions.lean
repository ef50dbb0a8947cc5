import StreamControl.Proofs.Standard.Reach
import StreamControl.Proofs.Streams.Provenance

/-!
# How insertions are decided

`Inserts` states by rules how a message that sends an event ends, what is replied and what becomes of
the streams.  As with creations, every rule says that the tests before it passed.  Of a payload with
several faults the first entry that is at fault decides, whatever is wrong with it.
`Wiring.insert_decides` says that the processor does exactly what the rules allow.
-/

namespace StreamControl

variable {σ : Type}

/-! ## The entries of a payload -/

namespace Schema

variable {schema : Schema} {c : Column}

/-- An entry names a declared column whose type accepts the value. -/
def Fitting (schema : Schema) (c : Column) : Prop :=
  ∃ d, schema.column? c.name = some d ∧ d.type.accepts c.value = true

/-- What is wrong with an entry of a payload for a stream, in the words of the reply. -/
inductive Misfit (schema : Schema) (stream : String) (c : Column) : (detail : String) → Prop
  | undeclared : schema.column? c.name = none →
      Misfit schema stream c ("stream " ++ stream ++ " has no column " ++ c.name)
  | mismatched {d : Declaration} : schema.column? c.name = some d →
      d.type.accepts c.value = false →
      Misfit schema stream c ("column " ++ c.name ++ " of stream " ++ stream ++ " expects " ++
        d.type.name ++ ", found " ++ refusedKind d.type c.value)

theorem fitting_iff : schema.Fitting c ↔ schema.violation? c = none := by
  have hone : schema.violations [c] = [] ↔ ∀ d ∈ [c], schema.Fitting d := violations_eq_nil_iff
  rw [List.forall_mem_singleton] at hone
  rw [← hone, violations, List.filterMap_eq_nil_iff, List.forall_mem_singleton]

/-- An entry at fault violates the schema, and the stream refuses it for that reason. -/
theorem Misfit.violation?_eq {stream detail : String} (h : schema.Misfit stream c detail) :
    ∃ violation, schema.violation? c = some violation ∧
      Failure.ofStreamError (.ofViolation stream violation) =
        .refused ⟨.columnDoesNotExist, detail⟩ := by
  cases h with
  | undeclared hnone =>
    refine ⟨.unknownColumn c.name, ?_, rfl⟩
    rw [violation?, hnone]
  | @mismatched d hsome hrefused =>
    refine ⟨.typeMismatch c.name d.type (refusedKind d.type c.value), ?_, rfl⟩
    rw [violation?, hsome]
    dsimp only
    rw [hrefused, if_neg Bool.false_ne_true]

theorem exists_misfit (stream : String) (h : ¬ schema.Fitting c) :
    ∃ detail, schema.Misfit stream c detail := by
  rcases hcolumn : schema.column? c.name with _ | d
  · exact ⟨_, .undeclared hcolumn⟩
  · refine ⟨_, .mismatched hcolumn ?_⟩
    exact eq_false_of_ne_true fun haccepts => h ⟨d, hcolumn, haccepts⟩

/-- The first entry at fault gives the first violation. -/
theorem violations_of_first {before after : List Column} {violation : Violation}
    (hbefore : ∀ d ∈ before, schema.Fitting d) (hc : schema.violation? c = some violation) :
    schema.violations (before ++ c :: after) = violation :: schema.violations after := by
  have hnone : before.filterMap schema.violation? = [] :=
    List.filterMap_eq_nil_iff.2 fun d hd => fitting_iff.1 (hbefore d hd)
  rw [violations, List.filterMap_append, hnone, List.nil_append, List.filterMap_cons_some hc]
  rfl

/-- A payload fits, or some entry is the first at fault. -/
theorem fitting_or_misfit (schema : Schema) (stream : String) (payload : List Column) :
    (∀ c ∈ payload, schema.Fitting c) ∨ ∃ before c after detail,
      payload = before ++ c :: after ∧ (∀ d ∈ before, schema.Fitting d) ∧
        schema.Misfit stream c detail := by
  induction payload with
  | nil => exact .inl nofun
  | cons first payload ih =>
    -- the first misfit is this entry, or the one found among those behind it
    by_cases hfirst : schema.Fitting first
    · rcases ih with hfits | ⟨before, c, after, detail, rfl, hbefore, hc⟩
      · exact .inl (List.forall_mem_cons.2 ⟨hfirst, hfits⟩)
      · exact .inr ⟨first :: before, c, after, detail, rfl,
          List.forall_mem_cons.2 ⟨hfirst, hbefore⟩, hc⟩
    · obtain ⟨detail, hmisfit⟩ := exists_misfit stream hfirst
      exact .inr ⟨[], first, payload, detail, rfl, nofun, hmisfit⟩

end Schema

namespace Standard

variable {m : Message} {t t' : Streams} {stream : String} {f : Refusal}

/-! ## Rules -/

/-- Why an event is refused. -/
inductive InsertionRefused (m : Message) (t : Streams) : Refusal → Prop
  | barred {f : Refusal} : Barred m t f → InsertionRefused m t f
  | missing {stream : String} : Reaches m t stream → t.get? stream = none →
      InsertionRefused m t ⟨.streamDoesNotExist, "stream " ++ stream ++ " does not exist"⟩
  /-- The first entry at fault decides, whatever is wrong with those behind it. -/
  | misfit {stream detail : String} {found : StreamState} {before after : List Column} {c : Column} :
      Reaches m t stream → t.get? stream = some found → m.columns = before ++ c :: after →
      (∀ d ∈ before, found.schema.Fitting d) → found.schema.Misfit stream c detail →
      InsertionRefused m t ⟨.columnDoesNotExist, detail⟩

/-- How a message ends that may send an event, with the reply and the streams afterwards. -/
inductive Inserts (m : Message) (t : Streams) : Outcome → Option Reply → Streams → Prop
  | ignored : ¬ IsInsert m → Inserts m t .dropped none t
  | notInserted {f : Refusal} : IsInsert m → InsertionRefused m t f →
      Inserts m t (.rejected f) (some ⟨f.code, some f.detail⟩) t
  /-- The payload is the last event of its stream; nothing is replied. -/
  | inserted {stream : String} {found : StreamState} {t' : Streams} :
      IsInsert m → Reaches m t stream → t.get? stream = some found →
      (∀ c ∈ m.columns, found.schema.Fitting c) →
      t'.internalOperations = t.internalOperations →
      (∀ name, t'.get? name =
        if name = stream then some { found with events := found.events ++ [m.columns] }
        else t.get? name) →
      Inserts m t (.completed false) none t'

/-! ## What the verdict says -/

/-- An event that reaches a stream is decided by the payload. -/
theorem insertVerdict_of_found {found : StreamState} (hreaches : Reaches m t stream)
    (hfound : t.get? stream = some found) :
    insertVerdict m t = (t.send stream m.columns).mapError .ofStreamError := by
  rw [insertVerdict, hreaches.verdictOn_eq, Streams.contains, hfound]
  rfl

theorem InsertionRefused.insertVerdict_eq (h : InsertionRefused m t f) :
    insertVerdict m t = .error (.refused f) := by
  cases h with
  | barred hbarred => exact hbarred.verdictOn_eq
  | missing hreaches hnone =>
    rw [insertVerdict, hreaches.verdictOn_eq, Streams.contains, hnone]
    rfl
  | misfit hreaches hfound hcolumns hbefore hmisfit =>
    -- of all violations the first one is reported
    obtain ⟨violation, hviolation, hfailure⟩ := hmisfit.violation?_eq
    rw [insertVerdict_of_found hreaches hfound, Streams.send, hfound, hcolumns]
    dsimp only
    rw [Schema.violations_of_first hbefore hviolation]
    exact congrArg Except.error hfailure

/-- An event that fits is accepted. -/
theorem insertVerdict_of_fitting {found : StreamState} (hreaches : Reaches m t stream)
    (hfound : t.get? stream = some found) (hfits : ∀ c ∈ m.columns, found.schema.Fitting c) :
    ∃ t', t.send stream m.columns = .ok t' ∧ insertVerdict m t = .ok t' := by
  have hsent := Streams.send_eq_ok_iff.2
    ⟨found, hfound, Schema.violations_eq_nil_iff.2 hfits, rfl⟩
  refine ⟨_, hsent, ?_⟩
  rw [insertVerdict_of_found hreaches hfound, hsent]
  rfl

/-- The streams after an event was accepted. -/
theorem get?_inserted {found : StreamState} (hfound : t.get? stream = some found)
    (hsent : t.send stream m.columns = .ok t') (name : String) :
    t'.get? name = if name = stream then some { found with events := found.events ++ [m.columns] }
      else t.get? name := by
  rw [Streams.get?_send hsent, hfound]
  exact if_congr eq_comm rfl rfl

theorem internalOperations_inserted (hsent : t.send stream m.columns = .ok t') :
    t'.internalOperations = t.internalOperations := by
  obtain ⟨found, -, -, rfl⟩ := Streams.send_eq_ok_iff.1 hsent
  rfl

/-! ## The rules and the policy -/

/-- The policy does what the rules say. -/
theorem Inserts.policy_eq {outcome : Outcome} {reply? : Option Reply}
    (h : Inserts m t outcome reply? t') :
    insertPolicy.answer m t = (outcome, reply?) ∧ insertPolicy.after m t = t' := by
  cases h with
  | ignored hnot =>
    have hnone := insertPolicy_eq_none hnot
    exact ⟨Policy.answer_of_none hnone, Policy.after_of_none hnone⟩
  | notInserted hinsert hrefused =>
    exact Policy.of_refused (insertPolicy_of_insert hinsert) hrefused.insertVerdict_eq
  | inserted hinsert hreaches hfound hfits hoperations hstreams =>
    obtain ⟨after, hsent, hverdict⟩ := insertVerdict_of_fitting hreaches hfound hfits
    -- the rule says of every stream what becomes of it, and that determines the streams
    have hafter : t' = after := by
      refine Streams.ext_get? (fun name => ?_) ?_
      · rw [hstreams, get?_inserted hfound hsent]
      · rw [hoperations, internalOperations_inserted hsent]
    rw [hafter]
    exact Policy.of_done (insertPolicy_of_insert hinsert) hverdict

/-- The rules say of every message how it ends. -/
theorem exists_inserts (m : Message) (t : Streams) :
    ∃ outcome reply? t', Inserts m t outcome reply? t' := by
  -- one rule per way out, in the order in which the processor looks for it
  by_cases hinsert : IsInsert m
  · obtain ⟨stream, hreaches⟩ | ⟨f, hbarred⟩ := reaches_or_barred m t
    · rcases hfound : t.get? stream with _ | found
      · exact ⟨_, _, _, .notInserted hinsert (.missing hreaches hfound)⟩
      · obtain hfits | ⟨before, c, after, detail, hcolumns, hbefore, hmisfit⟩ :=
          found.schema.fitting_or_misfit stream m.columns
        · obtain ⟨t', hsent, -⟩ := insertVerdict_of_fitting hreaches hfound hfits
          exact ⟨_, _, t', .inserted hinsert hreaches hfound hfits
            (internalOperations_inserted hsent) (get?_inserted hfound hsent)⟩
        · exact ⟨_, _, _, .notInserted hinsert
            (.misfit hreaches hfound hcolumns hbefore hmisfit)⟩
    · exact ⟨_, _, _, .notInserted hinsert (.barred hbarred)⟩
  · exact ⟨_, _, _, .ignored hinsert⟩

/-- An event that reaches a stream is appended exactly when the payload fits its schema. -/
theorem appended_iff {found : StreamState} (hinsert : IsInsert m) (hreaches : Reaches m t stream)
    (hfound : t.get? stream = some found) :
    (insertPolicy.after m t).events stream = found.events ++ [m.columns] ↔
      found.schema.fits m.columns = true := by
  rw [Schema.fits, List.isEmpty_iff, Schema.violations_eq_nil_iff]
  constructor
  · intro happended
    obtain hfits | ⟨before, c, after, detail, hcolumns, hbefore, hmisfit⟩ :=
      found.schema.fitting_or_misfit stream m.columns
    · exact hfits
    · -- a refused event changes nothing, so the stream would be as long as before
      have hrefused : InsertionRefused m t _ := .misfit hreaches hfound hcolumns hbefore hmisfit
      rw [(Inserts.notInserted hinsert hrefused).policy_eq.2, Streams.events, hfound] at happended
      exact absurd (List.self_eq_append_right.1 happended) (List.cons_ne_nil _ _)
  · intro hfits
    obtain ⟨t', hsent, -⟩ := insertVerdict_of_fitting hreaches hfound hfits
    have hstreams := get?_inserted (m := m) hfound hsent
    rw [(Inserts.inserted hinsert hreaches hfound hfits (internalOperations_inserted hsent)
      hstreams).policy_eq.2, Streams.events, hstreams, if_pos rfl]
    rfl

/-- **Rules decide about insertions.**  How a message that sends an event ends, what is replied and
what becomes of the streams is what the rules say and nothing else; an event that reaches a stream is
appended to it exactly when the payload fits the schema. -/
theorem Wiring.insert_decides (w : Wiring σ) (m : Message) (s : σ) :
    (∀ outcome reply? t, Inserts m (w.streams s) outcome reply? t ↔
      w.insert.fate m s = .ended (outcome, reply?) ∧
        w.streams (w.insert.handle m s).state = t) ∧
    ∀ stream found, IsInsert m → Reaches m (w.streams s) stream →
      (w.streams s).get? stream = some found →
      ((w.streams (w.insert.handle m s).state).events stream = found.events ++ [m.columns] ↔
        found.schema.fits m.columns = true) := by
  refine ⟨fun outcome reply? t => ?_, fun stream found hinsert hreaches hfound => ?_⟩
  · rw [w.follows_insert.ended_iff]
    exact Policy.rules_iff Inserts.policy_eq exists_inserts
  · rw [(w.follows_insert m s).2]
    exact appended_iff hinsert hreaches hfound

/-- An event in mixed letters becomes the first of its stream. -/
theorem Wiring.insert_decides_mixed_case :
    let w := Wiring.engine Config.default
    let start := Engine.new Config.default (.still 0)
    let creation := (Message.addressed "CREATE" "orders").carrying [.declaring "id" .integer]
    let s := (w.definition.handle creation start).state
    let m := (Message.addressed "iNsErT" "orders").carrying [.carrying "id" (.integer 7)]
    let after := (w.insert.handle m s).state
    Inserts m (w.streams s) (.completed false) none (w.streams after) ∧
      (w.streams after).events "orders" = [m.columns] := by
  intro w start creation s m after
  have hsent : w.insert.fate m s = .ended (.completed false, none) := by decide +kernel
  have hinsert : IsInsert m := by decide
  have hadmitted : (w.streams s).admits "orders" m.operationOrEmpty = true := by decide +kernel
  have hreaches : Reaches m (w.streams s) "orders" := ⟨rfl, by decide, admits_iff.1 hadmitted⟩
  have hsome : ((w.streams s).get? "orders").isSome = true := by decide +kernel
  have hempty : ((w.streams s).get? "orders").map (·.events) = some [] := by decide +kernel
  have hfits : ((w.streams s).get? "orders").map (·.schema.fits m.columns) = some true := by
    decide +kernel
  obtain ⟨found, hfound⟩ := Option.isSome_iff_exists.1 hsome
  rw [hfound, Option.map_some, Option.some.injEq] at hempty hfits
  obtain ⟨hrules, happended⟩ := w.insert_decides m s
  have hevent := (happended "orders" found hinsert hreaches hfound).2 hfits
  rw [hempty] at hevent
  exact ⟨(hrules _ _ _).2 ⟨hsent, rfl⟩, hevent⟩

end Standard

end StreamControl
