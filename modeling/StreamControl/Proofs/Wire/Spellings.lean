import StreamControl.Command.Run
import StreamControl.Proofs.Json.Respelling

/-!
# Messages in other spellings

Clients write their messages in different ways: with members in any order, with members that an older
engine does not know, with `null` or nothing at all for what they do not have to say, with characters
escaped or not, or as a bare array.  What a message says must not depend on that.  Each field of a
message is read steadily, down to the types and values of its columns; what may stand for a missing
field is read as its absence, and what says the same of a field is read as the same
(`Column.sound`, `Message.sound`).  So messages and batches are read the same however they are spelled
(`Message.spelling_immaterial`).
-/

namespace StreamControl

open Json

/-! ## Values -/

namespace Value

theorem reader_numeral {b : UInt8} (hb : Reader.startsNumber b = true) (depth : Nat)
    (bytes : Bytes) : reader depth (b :: bytes) = (ofNumeral <$> Reader.number) (b :: bytes) := by
  have hword : b ≠ Byte.lowerN ∧ b ≠ Byte.lowerT ∧ b ≠ Byte.lowerF := by
    refine ⟨?_, ?_, ?_⟩ <;> (rintro rfl; exact absurd hb (by decide))
  unfold reader
  rw [Reader.bind_apply_of_ok (Reader.ahead_cons (Reader.isBlank_of_startsNumber hb) _)]
  dsimp only
  rw [if_neg hword.1, if_neg hword.2.1, if_neg hword.2.2, if_pos hb]

/-- A word stands for one value. -/
theorem makes_word (w : Bytes) (v : Value) :
    Makes (do Reader.word w; pure v) w (some v) :=
  (Reader.makes_word w).bind (g := fun _ => some v) fun _ _ _ => rfl

theorem makes_null (depth : Nat) : Makes (reader depth) (utf8 "null") (some .null) :=
  fun rest hrest => makes_word (utf8 "null") .null rest hrest

/-- An array or object is no value, whatever is in it. -/
theorem refuses_nested (depth : Nat) :
    Reader.Refuses (do Reader.passStrictly depth; Reader.mismatch .notAValue : Reader Value) :=
  Reader.refuses_bind _ fun _ => Reader.refuses_mismatch _

/-- A text is a value, if it spells anything. -/
theorem makes_text (depth : Nat) {content : Bytes} (h : TextContent content) :
    Makes (reader depth) (textToken content) ((spelled? content).map text) := by
  intro rest _
  have htext : reader depth (textToken content ++ rest) =
      (text <$> Reader.text) (content ++ Byte.quote :: rest) := by
    rw [textToken, List.cons_append, List.append_assoc]
    rfl
  rw [htext, Reader.toOption_map, toOption_text h]
  cases spelled? content with
  | none => rfl
  | some s => rfl

theorem steady_reader (depth : Nat) : Steady (reader depth) where
  skips := skips_ahead.bind _
  settles := by
    intro v hv
    cases hv with
    | null => exact ⟨_, makes_null depth⟩
    | true => exact ⟨_, makes_word (utf8 "true") (.boolean true)⟩
    | false => exact ⟨_, makes_word (utf8 "false") (.boolean false)⟩
    | numeral ht =>
      obtain ⟨n?, hn⟩ := Reader.exists_number ht
      have hmakes : Makes Reader.number v n? := hn
      obtain ⟨b, bytes, rfl, hstarts⟩ := ht.exists_start
      refine ⟨n?.map ofNumeral, fun rest hrest => ?_⟩
      rw [List.cons_append, reader_numeral hstarts]
      exact hmakes.map ofNumeral rest hrest
    | text hcontent => exact ⟨_, makes_text depth hcontent⟩
    -- a value of a column holds no other values
    | array => exact ⟨none, fun rest _ => refuses_nested depth _⟩
    | object => exact ⟨none, fun rest _ => refuses_nested depth _⟩

end Value

/-! ## Types -/

namespace DataType

theorem skips_nameReader : Skips nameReader := (Reader.skips_key _).bind _

/-- A name between quotes is read, and what comes behind it does not matter. -/
theorem toOption_nameReader {content : Bytes} (h : TextContent content) (rest : Bytes) :
    (nameReader (Byte.quote :: (content ++ Byte.quote :: rest))).toOption =
      ((spelled? content).bind ofName?).map (·, rest) := by
  unfold nameReader
  rw [Reader.toOption_bind, Reader.key_quote, toOption_text h]
  rcases spelled? content with _ | name
  · rfl
  · dsimp only [Option.map_some, Option.bind_some]
    rcases ofName? name with _ | t
    · rfl
    · rfl

/-- A text is read as the type that it names. -/
theorem makes_name (depth : Nat) {content : Bytes} (h : TextContent content) :
    Makes (reader depth) (textToken content) ((spelled? content).bind ofName?) := by
  intro rest _
  have hname := toOption_nameReader h rest
  rw [textToken, List.cons_append, List.append_assoc]
  exact hname

theorem reader_otherwise {b : UInt8} (hblank : Byte.isBlank b = false) (hquote : b ≠ Byte.quote)
    (hbrace : b ≠ Byte.openBrace) (depth : Nat) (bytes : Bytes) :
    (reader depth (b :: bytes)).toOption = none := by
  unfold reader
  rw [Reader.bind_apply_of_ok (Reader.ahead_cons hblank _)]
  generalize hnext : some b = next
  split
  · rfl
  · exact absurd (Option.some.inj hnext) hquote
  · exact absurd (Option.some.inj hnext) hbrace
  · rfl

/-- The type that the only member of an object names. -/
def named? : List Member → Option DataType
  | [] => none
  | m :: ms => ((spelled? m.key).bind ofName?).bind fun t =>
      (made? Reader.unit m.value.core).bind fun _ => if ms.isEmpty then some t else none

/-- The end of an object that names a type. -/
def closeObject (t : DataType) : Reader DataType := do
  match ← Reader.ahead with
  | some Byte.closeBrace =>
    Reader.advance
    pure t
  | some _ => Reader.malformed
  | none => Reader.ended

/-- No member may follow. -/
theorem toOption_closeObject (t : DataType) (behind : Blanks) (items : List Padded) (rest : Bytes) :
    (closeObject t (behind.val ++
        (items.flatMap (Byte.comma :: ·.bytes) ++ Byte.closeBrace :: rest))).toOption =
      if items.isEmpty then some (t, rest) else none := by
  have hskips : Skips (closeObject t) := skips_ahead.bind _
  rw [hskips]
  cases items with
  | nil => rfl
  | cons item items => rfl

/-- A type is read from an object with one member, whose key is its name. -/
theorem makes_object (depth : Nat) (lead : Blanks) (ms : List Member) :
    Makes (reader (depth + 1)) (objectText lead (ms.map Member.toMemberText)) (named? ms) := by
  intro rest hrest
  have hobject : reader (depth + 1) (objectText lead (ms.map Member.toMemberText) ++ rest) =
      (nameReader >>= fun t => do Reader.colon; Reader.unit; closeObject t)
        ([Byte.comma].intercalate ((ms.map (·.padded)).map Padded.bytes) ++
          Byte.closeBrace :: rest) := by
    rw [← skips_nameReader.bind _ lead, objectText_append]
    rfl
  rw [hobject]
  cases ms with
  | nil => rfl
  | cons m ms =>
    have htail : ((ms.map (·.padded)).map Padded.bytes).flatMap (Byte.comma :: ·) =
        (ms.map (·.padded)).flatMap (Byte.comma :: ·.bytes) := List.flatMap_map ..
    have hends := (Reader.ends_items (.inr rfl) (ms.map (·.padded)) rest).blanks m.padded.behind
    -- the member's value is passed as `null`, up to the blanks behind it
    have hunit := Reader.steady_unit.makes m.isValue _ hends
    rw [List.map_cons, List.map_cons, intercalate_comma, htail, List.append_assoc,
      Padded.bytes_append, skips_nameReader.bind, MemberText.core_append, Reader.toOption_bind,
      toOption_nameReader m.isText]
    dsimp only [named?]
    rcases (spelled? m.key).bind ofName? with _ | t
    · rfl
    · dsimp only [Option.map_some, Option.bind_some]
      rw [Reader.bind_apply_of_ok (Reader.colon_bytes _ _), Reader.toOption_bind,
        Reader.steady_unit.skips, hunit]
      rcases made? Reader.unit m.value.core with _ | null
      · rfl
      · refine (toOption_closeObject t _ _ rest).trans ?_
        cases ms with
        | nil => rfl
        | cons n ms => rfl

theorem steady_reader (depth : Nat) : Steady (reader depth) where
  skips := skips_ahead.bind _
  settles := by
    intro v hv
    obtain ⟨b, bytes, rfl, hleads⟩ := hv.exists_leads
    -- a type is given as its name, or as an object with the name for its key
    by_cases hquote : b = Byte.quote
    · obtain ⟨content, hcontent, hv⟩ := hleads.text hquote
      exact ⟨_, by rw [hv]; exact makes_name depth hcontent⟩
    · by_cases hbrace : b = Byte.openBrace
      · obtain ⟨lead, ms, hv⟩ := hleads.object hbrace
        cases depth with
        | zero => exact ⟨none, fun rest _ => by rw [hv]; rfl⟩
        | succ depth => exact ⟨named? ms, by rw [hv]; exact makes_object depth lead ms⟩
      · exact ⟨none, fun rest _ => reader_otherwise hleads.blank hquote hbrace depth _⟩

end DataType

/-! ## Columns and messages -/

namespace Column

theorem steady_read (f : Field) (depth : Nat) : Steady (format.read f depth) := by
  cases f with
  | name => exact Reader.steady_string
  | type => exact Reader.steady_optional (DataType.steady_reader depth)
  | value => exact Value.steady_reader depth

theorem steady_reader (depth : Nat) : Steady (format.reader depth) :=
  RecordFormat.steady_reader (F := format) steady_read depth

/-- A type or value of `null` says the same of a column as none, and so do texts with the same
characters. -/
def synonyms : format.Synonyms where
  standsIn
    | .name, _ => False
    | .type, v | .value, v => v = utf8 "null"
  agree _ := SameText

theorem sound (depth : Nat) : synonyms.Sound depth where
  keys f := by cases f <;> rfl
  isValue := by
    intro f v hstand
    cases f with
    | name => exact hstand.elim
    | type | value =>
      obtain rfl := hstand
      exact .null
  makes := by
    intro f v hstand
    cases f with
    | name => exact hstand.elim
    | type =>
      obtain rfl := hstand
      exact ⟨none, rfl, Reader.makes_optional_null.made⟩
    | value =>
      obtain rfl := hstand
      exact ⟨.null, rfl, (Value.makes_null depth).made⟩
  agrees := by
    intro f v w hagree
    cases f with
    | name =>
      exact Reader.made?_of_sameText (g := id) (fun _ => Reader.makes_string) hagree
    | type =>
      refine Reader.made?_of_sameText (g := fun s? => (s?.bind DataType.ofName?).map some)
        (fun content hcontent => ?_) hagree
      exact Reader.makes_optional (DataType.makes_name depth hcontent) rfl (by decide)
    | value =>
      exact Reader.made?_of_sameText (g := Option.map Value.text)
        (fun _ => Value.makes_text depth) hagree

/-- The value `w` spells a column anew. -/
inductive Respelled : (v w : Bytes) → Prop
  | same {v : Bytes} : ValueText v → Respelled v v
  | object {lead lead' : Blanks} {ms ns : List Member} : RecordFormat.Respells synonyms ms ns →
      Respelled (objectText lead (ms.map Member.toMemberText))
        (objectText lead' (ns.map Member.toMemberText))

theorem Respelled.isValue {v w : Bytes} (h : Respelled v w) : ValueText v ∧ ValueText w := by
  cases h with
  | same hv => exact ⟨hv, hv⟩
  | object => exact ⟨valueText_object _ _, valueText_object _ _⟩

theorem Respelled.made {v w : Bytes} (h : Respelled v w) (depth : Nat) :
    made? (format.reader depth) v = made? (format.reader depth) w := by
  cases h with
  | same => rfl
  | object hns =>
    cases depth with
    | zero => rfl
    | succ depth =>
      have hread : ∀ f, Steady (format.read f depth) := fun f => steady_read f _
      rw [(RecordFormat.makes_object hread _ _).made, (RecordFormat.makes_object hread _ _).made]
      exact hns.drafted (sound depth)

/-- Two lists of columns that are spelled anew, one by one. -/
inductive ListRespelled : (v w : Bytes) → Prop
  | mk {lead lead' : Blanks} {es es' : List Padded} :
      List.Forall₂ (fun e e' => Respelled e.core e'.core) es es' →
      ListRespelled (arrayText lead es) (arrayText lead' es')

theorem ListRespelled.made {v w : Bytes} (h : ListRespelled v w) (depth : Nat) :
    made? (listReader (depth + 1)) v = made? (listReader (depth + 1)) w := by
  obtain @⟨lead, lead', es, es', hes⟩ := h
  obtain ⟨hvalue, hvalue'⟩ := forall_valueText (hes.imp fun _ _ he => he.isValue)
  calc made? (listReader (depth + 1)) (arrayText lead es)
      = Reader.gathered? (format.reader depth) es :=
        (Reader.makes_list steady_reader hvalue lead depth).made
    _ = Reader.gathered? (format.reader depth) es' :=
        Reader.gathered?_congr (hes.imp fun _ _ he => he.made depth)
    _ = made? (listReader (depth + 1)) (arrayText lead' es') :=
        (Reader.makes_list steady_reader hvalue' lead' depth).made.symm

end Column

namespace Message

theorem steady_read (f : Field) (depth : Nat) : Steady (format.read f depth) := by
  cases f with
  | operation | streamName | request => exact Reader.steady_optional Reader.steady_string
  | sessionId | requestId => exact Reader.steady_string
  | timestamp => exact Reader.steady_optional Reader.steady_int64
  | columns => exact Reader.steady_list Column.steady_reader depth

theorem steady_reader (depth : Nat) : Steady (format.reader depth) :=
  RecordFormat.steady_reader (F := format) steady_read depth

/-- What says the same of a field as its absence is `null`, or nothing between quotes or brackets.
Texts with the same characters say the same, and so do columns that are spelled anew. -/
def synonyms : format.Synonyms where
  standsIn
    | .operation, v | .streamName, v | .request, v | .timestamp, v => v = utf8 "null"
    | .sessionId, v | .requestId, v => v = textToken []
    | .columns, v => ∃ blanks, v = arrayText blanks []
  agree
    | .operation, v, w | .streamName, v, w | .request, v, w | .sessionId, v, w
    | .requestId, v, w => SameText v w
    | .timestamp, _, _ => False
    | .columns, v, w => Column.ListRespelled v w

theorem sound (depth : Nat) : synonyms.Sound (depth + 1) where
  keys f := by cases f <;> rfl
  isValue := by
    intro f v hstand
    -- one case for each kind of field: those that may be `null`, texts, and the columns
    cases f with
    | operation | streamName | request | timestamp =>
      obtain rfl := hstand
      exact .null
    | sessionId | requestId =>
      obtain rfl := hstand
      exact .text .nil
    | columns =>
      obtain ⟨blanks, rfl⟩ := hstand
      exact valueText_array_nil blanks
  makes := by
    intro f v hstand
    cases f with
    | operation | streamName | request | timestamp =>
      obtain rfl := hstand
      exact ⟨none, rfl, Reader.makes_optional_null.made⟩
    | sessionId | requestId =>
      obtain rfl := hstand
      have hempty : spelled? [] = some "" := (spelled?_eq_some_iff .nil).2 .nil
      exact ⟨"", rfl, (Reader.makes_string .nil).made.trans hempty⟩
    | columns =>
      obtain ⟨blanks, rfl⟩ := hstand
      exact ⟨[], rfl, (Reader.makes_list Column.steady_reader
        (fun e he => absurd he List.not_mem_nil) blanks depth).made⟩
  agrees := by
    intro f v w hagree
    cases f with
    | operation | streamName | request =>
      refine Reader.made?_of_sameText (g := Option.map some) (fun content hcontent => ?_) hagree
      exact Reader.makes_optional (Reader.makes_string hcontent) rfl (by decide)
    | sessionId | requestId =>
      exact Reader.made?_of_sameText (g := id) (fun _ => Reader.makes_string) hagree
    | timestamp => exact hagree.elim
    | columns => exact hagree.made depth

/-- The value `w` spells a message anew: as another object, or as the array of what the members of the
object `v` say of each field. -/
inductive Respelled : (v w : Bytes) → Prop
  | same {v : Bytes} : ValueText v → Respelled v v
  | object {lead lead' : Blanks} {ms ns : List Member} : RecordFormat.Respells synonyms ms ns →
      Respelled (objectText lead (ms.map Member.toMemberText))
        (objectText lead' (ns.map Member.toMemberText))
  | array {lead lead' : Blanks} {ms : List Member} {es : List Padded} :
      List.Forall₂ (RecordFormat.Supplies synonyms ms) format.fields es →
      Respelled (objectText lead (ms.map Member.toMemberText)) (arrayText lead' es)

theorem Respelled.isValue {v w : Bytes} (h : Respelled v w) : ValueText v ∧ ValueText w := by
  cases h with
  | same hv => exact ⟨hv, hv⟩
  | object => exact ⟨valueText_object _ _, valueText_object _ _⟩
  | array hes =>
    exact ⟨valueText_object _ _, .array (RecordFormat.Supplies.isValue (sound 0) hes)⟩

/-- A message that is spelled anew is read as the same message. -/
theorem Respelled.made {v w : Bytes} (h : Respelled v w) {depth : Nat} {m : Message}
    (hmade : made? (format.reader (depth + 2)) v = some m) :
    made? (format.reader (depth + 2)) w = some m := by
  -- a message lies one level above its columns
  have hread : ∀ f, Steady (format.read f (depth + 1)) := fun f => steady_read f _
  cases h with
  | same => exact hmade
  | object hns =>
    rw [(RecordFormat.makes_object hread _ _).made] at hmade ⊢
    rw [← hns.drafted (sound depth)]
    exact hmade
  | array hes =>
    have hvalue := RecordFormat.Supplies.isValue (sound depth) hes
    rw [(RecordFormat.makes_object hread _ _).made] at hmade
    rw [(RecordFormat.makes_array hread hvalue _).made]
    exact RecordFormat.Supplies.drafted (sound depth) hes hmade

/-- A document is read as what is made of its value. -/
theorem decode_eq_ok_iff {p : Padded} (hp : ValueText p.core) {m : Message} :
    decode p.bytes = .ok m ↔ made? (format.reader (125 + 2)) p.core = some m := by
  rw [show 125 + 2 = Reader.maxDepth from rfl,
    ← Reader.document_padded (steady_reader Reader.maxDepth) hp]
  exact Reader.toOption_eq_some.symm

/-- A batch is read as what is made of its elements. -/
theorem decodeBatch_eq_ok_iff {p : Padded} {lead : Blanks} {ps : List Padded}
    (hp : p.core = arrayText lead ps) (hps : ∀ p ∈ ps, ValueText p.core) {batch : List Message} :
    decodeBatch p.bytes = .ok batch ↔
      Reader.gathered? (format.reader (124 + 2)) ps = some batch := by
  have hmade : made? (Reader.list format.reader Reader.maxDepth) p.core =
      Reader.gathered? (format.reader (124 + 2)) ps := by
    rw [hp]
    exact (Reader.makes_list steady_reader hps lead (124 + 2)).made
  rw [← hmade, ← Reader.document_padded (Reader.steady_list steady_reader Reader.maxDepth)
    (hp ▸ .array hps)]
  exact Reader.toOption_eq_some.symm

/-- **A message means the same however it is spelled.**  Let an object say a message `m`, and let its
members be put in any order, with members that have unknown keys and any values whatever added or
taken away, with members that say of a missing field only what its absence stands for added or taken
away, and with other escapes in keys and texts and other spellings of columns; or let an array hold
what the object says of each field, with what stands for its absence in the place of a missing one.
What comes of it, between any blanks, is read as `m`.  A batch whose messages are spelled anew in this
way is read as the same batch, so the command does the same with it. -/
theorem spelling_immaterial :
    (∀ p q : Padded, Respelled p.core q.core → ∀ m, decode p.bytes = .ok m →
      decode q.bytes = .ok m) ∧
    ∀ (p q : Padded) (lead lead' : Blanks) (ps qs : List Padded), p.core = arrayText lead ps →
      q.core = arrayText lead' qs → List.Forall₂ (fun p q => Respelled p.core q.core) ps qs →
      ∀ batch, decodeBatch p.bytes = .ok batch →
        decodeBatch q.bytes = .ok batch ∧
          ∀ options clock, Command.dispatchFile options clock (some q.bytes) =
            Command.dispatchFile options clock (some p.bytes) := by
  refine ⟨?_, ?_⟩
  · intro p q hrespelled m hdecode
    obtain ⟨hp, hq⟩ := hrespelled.isValue
    refine (decode_eq_ok_iff hq).2 (hrespelled.made ?_)
    exact (decode_eq_ok_iff hp).1 hdecode
  · intro p q lead lead' ps qs hp hq hrespelled batch hdecode
    obtain ⟨hps, hqs⟩ := forall_valueText (hrespelled.imp fun _ _ h => h.isValue)
    have hdecode' : decodeBatch q.bytes = .ok batch := by
      refine (decodeBatch_eq_ok_iff hq hqs).2 ?_
      -- message by message, each is read as the same one
      refine Reader.gathered?_of_forall₂ (hrespelled.imp fun p q h m hm => ?_)
        ((decodeBatch_eq_ok_iff hp hps).1 hdecode)
      exact h.made hm
    refine ⟨hdecode', fun options clock => ?_⟩
    rw [Command.dispatchFile, Command.dispatchFile, hdecode, hdecode']

/-! ### A batch in two spellings -/

namespace Mixed

def blank : Blanks := ⟨[Byte.space], List.forall_mem_singleton.2 rfl⟩

/-- A letter is escaped. -/
theorem spells_escaped : Spells (utf8 "CRE\\u0041TE") (utf8 "CREATE") := by
  have hunit : HexUnit (utf8 "0041") (((0 * 16 + 0) * 16 + 4) * 16 + 1) := .mk rfl rfl rfl rfl
  have hrest : Spells (utf8 "TE") (utf8 "TE") := .of_plain (by decide)
  exact .plain (by decide) (.plain (by decide) (.plain (by decide) (.unit hunit rfl rfl hrest)))

theorem spells_plain : Spells (utf8 "CREATE") (utf8 "CREATE") := .of_plain (by decide)

theorem valueText_five : ValueText (utf8 "5") := by
  have hwhole : WholeText (utf8 "5") := .digits (d := 5) rfl (by decide) (by decide)
  exact .numeral (.positive (.mk hwhole .none .none))

/-- A numeral that no double can hold. -/
theorem valueText_huge : ValueText (utf8 "1e999") := by
  have hwhole : WholeText (utf8 "1") := .digits (d := 1) rfl (by decide) (by decide)
  have hexponent : ExponentText (utf8 "e999") :=
    .digits (.inl rfl) .none (by decide) (by decide : DigitBytes (utf8 "999"))
  exact .numeral (.positive (.mk hwhole .none hexponent))

/-- An object whose key is half of a surrogate pair. -/
def halved : Bytes :=
  objectText .none [⟨.none, utf8 "\\ud800", .none, .bare (arrayText .none [])⟩]

theorem valueText_halved : ValueText halved := by
  have hunit : HexUnit (utf8 "d800") (((13 * 16 + 8) * 16 + 0) * 16 + 0) := .mk rfl rfl rfl rfl
  have hkey : TextContent (utf8 "\\ud800") := .unit hunit .nil
  exact .object (List.forall_mem_singleton.2 hkey)
    (List.forall_mem_singleton.2 (valueText_array_nil .none))

/-- A member that names no field; its value could not be read as anything. -/
def unknown : Member :=
  .bare "x" (by decide) (.array (List.forall_mem_cons.2
    ⟨valueText_huge, List.forall_mem_singleton.2 valueText_halved⟩ :
      ∀ e ∈ [Padded.bare (utf8 "1e999"), .bare halved], ValueText e.core) :
    ValueText (arrayText .none [.bare (utf8 "1e999"), .bare halved]))

def operation : Member := .bare "operation" (by decide) (.text spells_plain.isText)
def escaped : Member := .bare "operation" (by decide) (.text spells_escaped.isText)
def timestamp : Member := .bare "timestamp" (by decide) valueText_five
def sessionId : Member := .bare "session_id" (by decide) (.text .nil)
def request : Member := .bare "request" (by decide) .null
def columns : Member := .bare "columns" (by decide) (valueText_array_nil blank)

theorem unknown_unknown : format.Unknown unknown :=
  RecordFormat.unknown_bare _ _ fun f => by cases f <;> decide

theorem names_operation : format.Names operation .operation := RecordFormat.names_bare _ _ rfl

theorem names_escaped : format.Names escaped .operation := RecordFormat.names_bare _ _ rfl

theorem names_timestamp : format.Names timestamp .timestamp := RecordFormat.names_bare _ _ rfl

/-- Members name fields, one by one. -/
abbrev Named (ms : List Member) (fs : List Field) : Prop :=
  List.Forall₂ (fun m (f : Field) => format.Names m f) ms fs

theorem lacks {ms : List Member} {fs : List Field} (h : Named ms fs) {f : Field} (hf : f ∉ fs) :
    ∀ m ∈ ms, ¬ format.Names m f := RecordFormat.forall_not_names (sound 0).keys h hf

/-- Empty values and `null` stand for missing fields. -/
theorem respells_added : RecordFormat.Respells synonyms [escaped, timestamp]
    [columns, request, sessionId, escaped, timestamp] := by
  have hnames : Named [escaped, timestamp] [.operation, .timestamp] :=
    .cons names_escaped (.cons names_timestamp .nil)
  have hsession : format.Names sessionId .sessionId := RecordFormat.names_bare _ _ rfl
  have hrequest : format.Names request .request := RecordFormat.names_bare _ _ rfl
  have hcolumns : format.Names columns .columns := RecordFormat.names_bare _ _ rfl
  refine .trans (.missing hsession rfl (lacks hnames (by decide))) ?_
  refine .trans (.missing hrequest rfl (lacks (.cons hsession hnames) (by decide))) ?_
  exact .missing hcolumns ⟨blank, rfl⟩ (lacks (.cons hrequest (.cons hsession hnames)) (by decide))

/-- The unknown member goes, a letter is escaped, members are added and all are turned around. -/
theorem respells : RecordFormat.Respells synonyms [unknown, operation, timestamp]
    [timestamp, escaped, sessionId, request, columns] := by
  have hrestated : RecordFormat.Respells synonyms [operation, timestamp] [escaped, timestamp] := by
    refine .restated (.cons ⟨⟨_, names_operation, names_escaped⟩, .inr ⟨_, names_operation, ?_⟩⟩
      (.cons ⟨⟨_, names_timestamp, names_timestamp⟩, .inl rfl⟩ .nil))
    exact .mk spells_plain spells_escaped
  refine .trans (.symm (.unknown unknown_unknown)) (hrestated.trans (respells_added.trans ?_))
  exact .reordered (List.reverse_perm _).symm

/-- The elements of an array that says the same: an operation, a time, and what stands for the fields
that are missing. -/
def elements : List Padded :=
  [.bare (textToken (utf8 "CREATE")), .bare (utf8 "null"), .bare (textToken []),
    .bare (textToken []), .bare (utf8 "null"), .bare (utf8 "5"), .bare (arrayText .none [])]

theorem supplies : List.Forall₂ (RecordFormat.Supplies synonyms [unknown, operation, timestamp])
    format.fields elements := by
  have hnames : Named [operation, timestamp] [.operation, .timestamp] :=
    .cons names_operation (.cons names_timestamp .nil)
  have hmissing : ∀ f ∉ [Field.operation, .timestamp], ∀ v, synonyms.standsIn f v →
      RecordFormat.Supplies synonyms [unknown, operation, timestamp] f (.bare v) := by
    intro f hf v hstand
    exact .inr ⟨List.forall_mem_cons.2 ⟨unknown_unknown.not_names f, lacks hnames hf⟩, hstand⟩
  have hnull := Eq.refl (utf8 "null")
  have hquotes := Eq.refl (textToken [])
  refine .cons (.of_bare (.text spells_plain.isText) (.tail _ (.head _)) rfl) ?_
  refine .cons (hmissing .streamName (by decide) _ hnull) ?_
  refine .cons (hmissing .sessionId (by decide) _ hquotes) ?_
  refine .cons (hmissing .requestId (by decide) _ hquotes) ?_
  refine .cons (hmissing .request (by decide) _ hnull) ?_
  refine .cons (.of_bare valueText_five (.tail _ (.tail _ (.head _))) rfl) ?_
  exact .cons (hmissing .columns (by decide) _ ⟨.none, rfl⟩) .nil

/-- The object as it was sent, behind a blank. -/
def sent : Padded :=
  ⟨blank, objectText .none ([unknown, operation, timestamp].map Member.toMemberText), .none⟩

/-- The same object in another spelling. -/
def object : Padded := .bare (objectText .none
  ([timestamp, escaped, sessionId, request, columns].map Member.toMemberText))

/-- The array that says the same, before a line feed. -/
def array : Padded :=
  ⟨.none, arrayText .none elements, ⟨[Byte.lineFeed], List.forall_mem_singleton.2 rfl⟩⟩

theorem respelled_object : Respelled sent.core object.core := .object respells

theorem respelled_array : Respelled sent.core array.core := .array supplies

theorem bytes_pair (a b : Padded) : (Padded.bare (arrayText .none [a, b])).bytes =
    Byte.openBracket :: (a.bytes ++ Byte.comma :: (b.bytes ++ [Byte.closeBracket])) := by
  simp only [Padded.bytes, Padded.bare, Blanks.none, arrayText, enclosed, List.nil_append,
    List.append_nil, List.map_cons, List.map_nil, intercalate_comma, List.flatMap_cons,
    List.flatMap_nil, List.append_assoc, List.cons_append]

end Mixed

/-- An unknown member, with a numeral out of range and half of a surrogate pair in it, is taken away;
empty values and `null` are added in the place of missing fields, a letter is escaped, and the order
is turned around. -/
theorem spelling_immaterial_mixed :
    let p := utf8 (" \x7b\"x\":[1e999,\x7b\"\\ud800\":[]\x7d]," ++
      "\"operation\":\"CREATE\",\"timestamp\":5\x7d")
    let q := utf8 ("\x7b\"timestamp\":5,\"operation\":\"CRE\\u0041TE\",\"session_id\":\"\"," ++
      "\"request\":null,\"columns\":[ ]\x7d")
    let r := utf8 "[\"CREATE\",null,\"\",\"\",null,5,[]]\n"
    let ps := Byte.openBracket :: (p ++ Byte.comma :: (p ++ [Byte.closeBracket]))
    let qs := Byte.openBracket :: (q ++ Byte.comma :: (r ++ [Byte.closeBracket]))
    let m : Message := ⟨some "CREATE", none, "", "", none, some 5, []⟩
    let options : Command.Options := ⟨"batch.json", Config.default, .text, none⟩
    (decode p = .ok m ∧ decode q = .ok m ∧ decode r = .ok m) ∧
      decodeBatch ps = .ok [m, m] ∧ decodeBatch qs = .ok [m, m] ∧
        Command.dispatchFile options (.still 5) (some qs) =
          Command.dispatchFile options (.still 5) (some ps) := by
  intro p q r ps qs m options
  have hp : Mixed.sent.bytes = p := rfl
  have hq : Mixed.object.bytes = q := rfl
  have hr : Mixed.array.bytes = r := rfl
  -- the two batches are written as arrays of the messages
  have hps : (Padded.bare (arrayText .none [Mixed.sent, Mixed.sent])).bytes = ps := by
    rw [Mixed.bytes_pair, hp]
  have hqs : (Padded.bare (arrayText .none [Mixed.object, Mixed.array])).bytes = qs := by
    rw [Mixed.bytes_pair, hq, hr]
  have hdecode : decode p = .ok m := by decide +kernel
  have hdecodes : decodeBatch ps = .ok [m, m] := by decide +kernel
  obtain ⟨hsingle, hbatch⟩ := spelling_immaterial
  have hobject := hsingle Mixed.sent Mixed.object Mixed.respelled_object m (hp ▸ hdecode)
  have harray := hsingle Mixed.sent Mixed.array Mixed.respelled_array m (hp ▸ hdecode)
  obtain ⟨hreads, hdispatch⟩ := hbatch (.bare (arrayText .none [Mixed.sent, Mixed.sent]))
    (.bare (arrayText .none [Mixed.object, Mixed.array])) .none .none _ _ rfl rfl
    (.cons Mixed.respelled_object (.cons Mixed.respelled_array .nil)) [m, m] (hps ▸ hdecodes)
  rw [hq] at hobject
  rw [hr] at harray
  rw [hqs] at hreads hdispatch
  rw [hps] at hdispatch
  exact ⟨⟨hdecode, hobject, harray⟩, hdecodes, hreads, hdispatch options (.still 5)⟩

end Message

end StreamControl
