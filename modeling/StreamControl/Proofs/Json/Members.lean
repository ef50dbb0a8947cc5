import StreamControl.Proofs.Json.Steady

/-!
# What records are made of

The members of an object are entries for its fields: `entry?` says what a single one adds, and
`RecordFormat.makes_object` that an object in any spelling is made of its entries, added one after
the other.  An array is made of the values of the fields in their order (`makes_array`).  So a record
is read steadily if its fields are.
-/

namespace StreamControl.Json

namespace RecordFormat

variable {ρ : Type} (F : RecordFormat ρ)

/-! ## Objects -/

/-- A field with its content. -/
abbrev Entry := (f : F.Field) × F.Content f

/-- What a member adds, if its key and value are accepted; that is nothing where its key is that of no
field. -/
def entry? (depth : Nat) (m : Member) : Option (Option F.Entry) :=
  (spelled? m.key).bind fun key =>
    match F.fieldOf? key with
    | none => some none
    | some f => (made? (F.read f depth) m.value.core).map fun content => some ⟨f, content⟩

variable {F} in
/-- Adds an entry for a field that has none. -/
def Draft.add? (d : F.Draft) : Option F.Entry → Option F.Draft
  | none => some d
  | some ⟨f, content⟩ => if (d f).isSome then none else some (d.set f content)

/-- Adds what a member says. -/
def addMember? (depth : Nat) (d : F.Draft) (m : Member) : Option F.Draft :=
  (F.entry? depth m).bind d.add?

/-- The record of a draft, if no field is missing. -/
def record? (d : F.Draft) : Option ρ := d.complete.toOption.map F.make

variable {F}

theorem toOption_finish (d : F.Draft) (rest : Bytes) :
    (F.finish d rest).toOption = (F.record? d).map (·, rest) := by
  unfold finish record?
  cases d.complete with
  | ok => rfl
  | error => rfl

/-- A key is read, or refused if it spells nothing. -/
theorem key_member (m : Member) (rest : Bytes) :
    (Reader.key Reader.text (m.padded.core ++ rest)).toOption =
      (spelled? m.key).map (·, m.gap.val ++
        Byte.colon :: (m.value.before.val ++ (m.value.core ++ rest))) := by
  rw [MemberText.core_append, Reader.key_quote]
  exact toOption_text m.isText _

/-- A member is read for what it adds. -/
theorem takes_readMember {depth : Nat} (h : ∀ f, Steady (F.read f depth)) (m : Member) :
    Takes Byte.closeBrace (F.readMember depth) m.padded (F.addMember? depth · m) where
  starts := ⟨_, _, rfl, rfl, by decide⟩
  skips _ := (Reader.skips_key _).bind _
  makes d rest hrest := by
    unfold readMember
    rw [Reader.toOption_bind, key_member]
    unfold addMember? entry?
    rcases spelled? m.key with _ | key
    · rfl
    · dsimp only [Option.map_some, Option.bind_some]
      rcases F.fieldOf? key with _ | f
      · dsimp only
        rw [Reader.bind_apply_of_ok (Reader.colon_bytes _ _), Reader.toOption_bind,
          Reader.passLeniently_value m.isValue m.value.before hrest]
        rfl
      · dsimp only
        have hmakes := (h f).makes m.isValue rest hrest
        -- the reader refuses a second entry before it looks at the value, `add?` only after that
        by_cases hseen : (d f).isSome = true
        · rw [if_pos hseen]
          cases made? (F.read f depth) m.value.core with
          | none => rfl
          | some content =>
            dsimp only [Option.map_some, Option.bind_some, Draft.add?]
            rw [if_pos hseen]
            rfl
        · rw [if_neg hseen, Reader.bind_apply_of_ok (Reader.colon_bytes _ _), Reader.toOption_bind,
            (h f).skips, hmakes]
          cases made? (F.read f depth) m.value.core with
          | none => rfl
          | some content =>
            dsimp only [Option.map_some, Option.bind_some, Draft.add?]
            rw [if_neg hseen]
            rfl

/-- The draft that the members of an object add up to. -/
def drafted? (F : RecordFormat ρ) (depth : Nat) (ms : List Member) : Option F.Draft :=
  ms.foldlM (F.addMember? depth) (Draft.empty F)

/-- **An object is made of what its members add.** -/
theorem makes_object {depth : Nat} (h : ∀ f, Steady (F.read f depth)) (lead : Blanks)
    (ms : List Member) :
    Makes (F.reader (depth + 1)) (objectText lead (ms.map Member.toMemberText))
      ((F.drafted? depth ms).bind F.record?) := by
  intro rest _
  -- the brace and the blanks behind it are passed; what is left is a list of members
  have hobject : F.reader (depth + 1) (objectText lead (ms.map Member.toMemberText) ++ rest) =
      (Reader.members Byte.closeBrace (F.readMember depth) (Draft.empty F) >>= F.finish)
        (lead.val ++ ([Byte.comma].intercalate ((ms.map (·.padded)).map Padded.bytes) ++
          Byte.closeBrace :: rest)) := by
    rw [objectText_append]
    rfl
  rw [hobject, Reader.toOption_bind,
    Reader.members_items (.inr rfl) (fun m _ => takes_readMember h m) lead]
  unfold drafted?
  cases ms.foldlM (F.addMember? depth) (Draft.empty F) with
  | none => rfl
  | some d => exact toOption_finish d rest

/-! ## Arrays -/

/-- Adds the values of fields in their order.  Fields behind the last value must be such that can be
missing, and no value may be left. -/
def addElements? (F : RecordFormat ρ) (depth : Nat) :
    List F.Field → List Padded → F.Draft → Option F.Draft
  | [], [], d => some d
  | [], _ :: _, _ => none
  | f :: fs, [], d => if (F.absent f).isSome then addElements? F depth fs [] d else none
  | f :: fs, e :: es, d =>
    (made? (F.read f depth) e.core).bind fun content => addElements? F depth fs es (d.set f content)

/-- The end of an array, from some field on. -/
def readTail (F : RecordFormat ρ) (depth : Nat) (fs : List F.Field) (index : Nat) (first : Bool)
    (d : F.Draft) : Reader ρ := do
  let d ← F.readElements depth fs index first d
  closeArray
  F.finish d

theorem skips_readTail (depth : Nat) (fs : List F.Field) (index : Nat) (first : Bool)
    (d : F.Draft) : Skips (F.readTail depth fs index first d) := by
  cases fs with
  | nil =>
    have hclose : Skips closeArray := skips_ahead.bind _
    rw [readTail, readElements, pure_bind]
    exact hclose.bind _
  | cons f fs =>
    have helement : Skips (readElement? first (F.read f depth)) := skips_ahead.bind _
    exact (helement.bind _).bind _

/-- An array at its end has no next element. -/
theorem readTail_missing (depth : Nat) (f : F.Field) (fs : List F.Field) (index : Nat)
    (first : Bool) (d : F.Draft) (rest : Bytes) :
    F.readTail depth (f :: fs) index first d (Byte.closeBracket :: rest) =
      if (F.absent f).isSome then
        F.readTail depth fs (index + 1) first d (Byte.closeBracket :: rest)
      else .error (.mismatch (.tooShort index F.name F.fields.length)) := by
  have helement : readElement? first (F.read f depth) (Byte.closeBracket :: rest) =
      .ok (none, Byte.closeBracket :: rest) := rfl
  unfold readTail
  rw [readElements, bind_assoc, Reader.bind_apply_of_ok helement]
  dsimp only
  split
  · rfl
  · rfl

/-- What is left of an array where the next element is read on. -/
theorem readTail_element {depth : Nat} {f : F.Field} {first : Bool} {bytes left : Bytes}
    (helement : readElement? first (F.read f depth) bytes = (some <$> F.read f depth) left)
    (fs : List F.Field) (index : Nat) (d : F.Draft) :
    (F.readTail depth (f :: fs) index first d bytes).toOption =
      (F.read f depth left).toOption.bind fun r =>
        (F.readTail depth fs (index + 1) false (d.set f r.1) r.2).toOption := by
  unfold readTail
  rw [readElements, bind_assoc, Reader.toOption_bind, helement, Reader.toOption_map]
  cases (F.read f depth left).toOption with
  | none => rfl
  | some r => rfl

/-- Behind a comma the next element is read. -/
theorem readElement?_comma {α : Type} (read : Reader α) (bytes : Bytes) :
    readElement? false read (Byte.comma :: bytes) = (some <$> read) bytes := rfl

/-- Fields behind the last value are missing. -/
theorem readTail_end (depth : Nat) (fs : List F.Field) (index : Nat) (first : Bool) (d : F.Draft)
    (rest : Bytes) :
    (F.readTail depth fs index first d (Byte.closeBracket :: rest)).toOption =
      ((F.addElements? depth fs [] d).bind F.record?).map (·, rest) := by
  induction fs generalizing index with
  | nil => exact toOption_finish d rest
  | cons f fs ih =>
    rw [readTail_missing, addElements?]
    split
    · exact ih (index + 1)
    · rfl

/-- The elements behind the first are read, each behind its comma. -/
theorem readTail_elements {depth : Nat} (h : ∀ f, Steady (F.read f depth)) {es : List Padded}
    (hvalue : ∀ e ∈ es, ValueText e.core) (fs : List F.Field) (index : Nat) (d : F.Draft)
    (rest : Bytes) :
    (F.readTail depth fs index false d
        (es.flatMap (Byte.comma :: ·.bytes) ++ Byte.closeBracket :: rest)).toOption =
      ((F.addElements? depth fs es d).bind F.record?).map (·, rest) := by
  induction es generalizing fs index d with
  | nil => exact readTail_end depth fs index false d rest
  | cons e es ih =>
    obtain ⟨he, hvalue⟩ := List.forall_mem_cons.1 hvalue
    cases fs with
    | nil => rfl
    | cons f fs =>
      rw [List.flatMap_cons, List.cons_append, List.cons_append, List.append_assoc,
        readTail_element (readElement?_comma _ _), Padded.bytes_append, (h f).skips,
        (h f).makes he _ ((Reader.ends_items (.inl rfl) es rest).blanks _), addElements?]
      cases made? (F.read f depth) e.core with
      | none => rfl
      | some content =>
        exact (congrArg Except.toOption (skips_readTail ..)).trans (ih hvalue fs _ _)

theorem closeArray_otherwise {b : UInt8} (hblank : Byte.isBlank b = false)
    (hb : b ≠ Byte.closeBracket) (bytes : Bytes) : (closeArray (b :: bytes)).toOption = none := by
  unfold closeArray
  rw [Reader.bind_apply_of_ok (Reader.ahead_cons hblank _)]
  generalize hnext : some b = next
  split
  · exact absurd (Option.some.inj hnext) hb
  · rfl
  · rfl

/-- The first element is read where it stands. -/
theorem readElement?_first {b : UInt8} (hblank : Byte.isBlank b = false)
    (hb : b ≠ Byte.closeBracket) {α : Type} (read : Reader α) (bytes : Bytes) :
    readElement? true read (b :: bytes) = (some <$> read) (b :: bytes) := by
  unfold readElement?
  rw [Reader.bind_apply_of_ok (Reader.ahead_cons hblank _)]
  dsimp only
  rw [if_neg hb, if_pos rfl]

/-- **An array is made of the values of the fields in their order.** -/
theorem makes_array {depth : Nat} (h : ∀ f, Steady (F.read f depth)) {es : List Padded}
    (hvalue : ∀ e ∈ es, ValueText e.core) (lead : Blanks) :
    Makes (F.reader (depth + 1)) (arrayText lead es)
      ((F.addElements? depth F.fields es (Draft.empty F)).bind F.record?) := by
  intro rest _
  have harray : F.reader (depth + 1) (arrayText lead es ++ rest) =
      F.readTail depth F.fields 0 true (Draft.empty F)
        ([Byte.comma].intercalate (es.map Padded.bytes) ++ Byte.closeBracket :: rest) := by
    rw [← skips_readTail _ _ _ _ _ lead, arrayText, enclosed_append]
    rfl
  rw [harray]
  cases es with
  | nil => exact readTail_end depth F.fields 0 true (Draft.empty F) rest
  | cons e es =>
    obtain ⟨he, hvalue⟩ := List.forall_mem_cons.1 hvalue
    obtain ⟨b, bytes, hcore, hleads⟩ := he.exists_leads
    have htail : (es.map Padded.bytes).flatMap (Byte.comma :: ·) =
        es.flatMap (Byte.comma :: ·.bytes) := List.flatMap_map ..
    rw [List.map_cons, intercalate_comma, htail, List.append_assoc, Padded.bytes_append,
      skips_readTail]
    -- an element is read only if there is a field for it, else it is one too many
    cases F.fields with
    | nil =>
      rw [hcore, List.cons_append, readTail, readElements, pure_bind, Reader.toOption_bind,
        closeArray_otherwise hleads.blank hleads.closeBracket]
      rfl
    | cons f fs =>
      rw [hcore, List.cons_append,
        readTail_element (readElement?_first hleads.blank hleads.closeBracket _ _),
        ← List.cons_append, ← hcore,
        (h f).makes he _ ((Reader.ends_items (.inl rfl) es rest).blanks _), addElements?]
      -- what the first element leaves unread begins with a comma or ends the array
      cases made? (F.read f depth) e.core with
      | none => rfl
      | some content =>
        exact (congrArg Except.toOption (skips_readTail ..)).trans
          (readTail_elements h hvalue fs _ _ rest)

theorem reader_otherwise {b : UInt8} (hblank : Byte.isBlank b = false) (hbrace : b ≠ Byte.openBrace)
    (hbracket : b ≠ Byte.openBracket) (depth : Nat) (bytes : Bytes) :
    (F.reader depth (b :: bytes)).toOption = none := by
  unfold reader
  rw [Reader.bind_apply_of_ok (Reader.ahead_cons hblank _)]
  generalize hnext : some b = next
  split
  · exact absurd (Option.some.inj hnext) hbrace
  · exact absurd (Option.some.inj hnext) hbracket
  · exact Reader.refuses_unexpected _ _

/-- A record is read steadily if its fields are. -/
theorem steady_reader (h : ∀ f depth, Steady (F.read f depth)) (depth : Nat) :
    Steady (F.reader depth) where
  skips := skips_ahead.bind _
  settles := by
    intro v hv
    obtain ⟨b, bytes, rfl, hleads⟩ := hv.exists_leads
    -- the first byte tells objects from arrays; any other value is no record
    by_cases hbrace : b = Byte.openBrace
    · obtain ⟨lead, ms, hv⟩ := hleads.object hbrace
      cases depth with
      | zero => exact ⟨none, fun rest _ => by rw [hv]; rfl⟩
      | succ depth => exact ⟨_, by rw [hv]; exact makes_object (h · depth) lead ms⟩
    · by_cases hbracket : b = Byte.openBracket
      · obtain ⟨lead, es, hvalue, hv⟩ := hleads.array hbracket
        cases depth with
        | zero => exact ⟨none, fun rest _ => by rw [hv]; rfl⟩
        | succ depth => exact ⟨_, by rw [hv]; exact makes_array (h · depth) hvalue lead⟩
      · exact ⟨none, fun rest _ => reader_otherwise hleads.blank hbrace hbracket depth _⟩

end RecordFormat

end StreamControl.Json
