import Mathlib.Data.List.Forall2
import StreamControl.Proofs.Json.Records
import StreamControl.Proofs.Json.Tokens

/-!
# Steady readers

What a reader makes of a value (`Makes`) is the same wherever the value stands: a reader is `Steady`
if it passes over blanks in front, and if what comes behind a value changes neither what the reader
makes of the value nor where it stops.  This holds of values in any spelling, also of those that the
reader refuses, so records and lists can be put together from steady readers.

* `members_items`: what readers of single members make of the members between two bytes.
* `makes_pass`: any value is passed over, however deep it is nested.
-/

namespace StreamControl.Json

/-! ## What is made of a value -/

/-- A reader takes exactly the value `v` for `a?`, or refuses it, whatever comes behind. -/
def Makes {α : Type} (read : Reader α) (v : Bytes) (a? : Option α) : Prop :=
  ∀ rest, Ends rest → (read (v ++ rest)).toOption = a?.map (·, rest)

/-- What a reader makes of a value that stands alone. -/
def made? {α : Type} (read : Reader α) (v : Bytes) : Option α := (read v).toOption.map (·.1)

/-- Blanks in front do not matter. -/
def Skips {α : Type} (read : Reader α) : Prop :=
  ∀ (ws : Blanks) (bytes : Bytes), read (ws.val ++ bytes) = read bytes

/-- What is made of a value depends on nothing around it. -/
structure Steady {α : Type} (read : Reader α) : Prop where
  skips : Skips read
  settles : ∀ {v : Bytes}, ValueText v → ∃ a?, Makes read v a?

section

variable {α β : Type} {read : Reader α} {v : Bytes} {a? : Option α}

theorem Makes.made (h : Makes read v a?) : made? read v = a? := by
  have hread := h [] ends_nil
  rw [List.append_nil] at hread
  unfold made?
  rw [hread]
  cases a? with
  | none => rfl
  | some a => rfl

theorem Steady.makes (h : Steady read) (hv : ValueText v) : Makes read v (made? read v) := by
  obtain ⟨a?, hmakes⟩ := h.settles hv
  rw [hmakes.made]
  exact hmakes

/-- A reader goes on with what it made of a value. -/
theorem Makes.bind (h : Makes read v a?) {f : α → Reader β} {g : α → Option β}
    (hf : ∀ a rest, Ends rest → (f a rest).toOption = (g a).map (·, rest)) :
    Makes (read >>= f) v (a?.bind g) := by
  intro rest hrest
  rw [Reader.toOption_bind, h rest hrest]
  cases a? with
  | none => rfl
  | some a => exact hf a rest hrest

theorem Makes.map (h : Makes read v a?) (f : α → β) : Makes (f <$> read) v (a?.map f) := by
  intro rest hrest
  rw [Reader.toOption_map, h rest hrest]
  cases a? with
  | none => rfl
  | some a => rfl

theorem Skips.bind (h : Skips read) (f : α → Reader β) : Skips (read >>= f) := by
  intro ws bytes
  change Except.bind (read (ws.val ++ bytes)) _ = Except.bind (read bytes) _
  rw [h ws bytes]

theorem Skips.map (h : Skips read) (f : α → β) : Skips (f <$> read) := by
  rw [map_eq_pure_bind]
  exact h.bind _

theorem skips_ahead : Skips Reader.ahead := by
  rintro ⟨ws, hws⟩ bytes
  unfold Reader.ahead
  rw [List.dropWhile_append_of_pos hws]

end

/-! ## The first byte of a value -/

/-- The members of an object, each with what makes it one. -/
theorem exists_members {members : List MemberText} (htext : ∀ m ∈ members, TextContent m.key)
    (hvalue : ∀ m ∈ members, ValueText m.value.core) :
    ∃ ms : List Member, members = ms.map Member.toMemberText := by
  induction members with
  | nil => exact ⟨[], rfl⟩
  | cons m members ih =>
    obtain ⟨hm, htext⟩ := List.forall_mem_cons.1 htext
    obtain ⟨hm', hvalue⟩ := List.forall_mem_cons.1 hvalue
    obtain ⟨ms, rfl⟩ := ih htext hvalue
    exact ⟨⟨m, hm, hm'⟩ :: ms, rfl⟩

theorem NumeralText.exists_start {t : Bytes} (h : NumeralText t) :
    ∃ b bytes, t = b :: bytes ∧ Reader.startsNumber b = true := by
  cases h with
  | positive ht =>
    obtain ⟨b, bytes, rfl, hdigit⟩ := ht.exists_digit
    exact ⟨b, bytes, rfl, by rw [Reader.startsNumber, hdigit, Bool.or_true]⟩
  | negative _ => exact ⟨_, _, rfl, rfl⟩

theorem valueText_object (lead : Blanks) (ms : List Member) :
    ValueText (objectText lead (ms.map Member.toMemberText)) :=
  .object (List.forall_mem_map.2 fun m _ => m.isText) (List.forall_mem_map.2 fun m _ => m.isValue)

theorem valueText_array_nil (lead : Blanks) : ValueText (arrayText lead []) :=
  .array fun _ he => absurd he List.not_mem_nil

theorem forall_valueText {es es' : List Padded}
    (h : List.Forall₂ (fun e e' => ValueText e.core ∧ ValueText e'.core) es es') :
    (∀ e ∈ es, ValueText e.core) ∧ ∀ e' ∈ es', ValueText e'.core := by
  induction h with
  | nil => exact ⟨fun e he => absurd he List.not_mem_nil, fun e he => absurd he List.not_mem_nil⟩
  | cons hvalue _ ih =>
    exact ⟨List.forall_mem_cons.2 ⟨hvalue.1, ih.1⟩, List.forall_mem_cons.2 ⟨hvalue.2, ih.2⟩⟩

/-- The first byte of a value tells its kind. -/
structure Leads (b : UInt8) (v : Bytes) : Prop where
  null : b = Byte.lowerN → v = utf8 "null"
  isTrue : b = Byte.lowerT → v = utf8 "true"
  isFalse : b = Byte.lowerF → v = utf8 "false"
  numeral : Reader.startsNumber b = true → NumeralText v
  text : b = Byte.quote → ∃ content, TextContent content ∧ v = textToken content
  array : b = Byte.openBracket →
    ∃ lead elements, (∀ e ∈ elements, ValueText e.core) ∧ v = arrayText lead elements
  object : b = Byte.openBrace →
    ∃ lead, ∃ ms : List Member, v = objectText lead (ms.map Member.toMemberText)
  blank : Byte.isBlank b = false
  comma : b ≠ Byte.comma
  closeBracket : b ≠ Byte.closeBracket
  closeBrace : b ≠ Byte.closeBrace

theorem ValueText.exists_leads {v : Bytes} (h : ValueText v) :
    ∃ b bytes, v = b :: bytes ∧ Leads b v := by
  -- one case for each kind of value: its own opening fits the first byte, no other one does
  cases h with
  | null =>
    refine ⟨_, _, rfl, ?_⟩
    constructor <;> first | exact fun _ => rfl | decide | exact fun h => absurd h (by decide)
  | true =>
    refine ⟨_, _, rfl, ?_⟩
    constructor <;> first | exact fun _ => rfl | decide | exact fun h => absurd h (by decide)
  | false =>
    refine ⟨_, _, rfl, ?_⟩
    constructor <;> first | exact fun _ => rfl | decide | exact fun h => absurd h (by decide)
  | text hcontent =>
    refine ⟨_, _, rfl, ?_⟩
    constructor <;> first
      | exact fun _ => ⟨_, hcontent, rfl⟩ | decide | exact fun h => absurd h (by decide)
  | array helements =>
    refine ⟨_, _, rfl, ?_⟩
    constructor <;> first
      | exact fun _ => ⟨_, _, helements, rfl⟩ | decide | exact fun h => absurd h (by decide)
  | object htext hvalue =>
    obtain ⟨ms, rfl⟩ := exists_members htext hvalue
    refine ⟨_, _, rfl, ?_⟩
    constructor <;> first
      | exact fun _ => ⟨_, _, rfl⟩ | decide | exact fun h => absurd h (by decide)
  | numeral ht =>
    obtain ⟨b, bytes, rfl, hstarts⟩ := ht.exists_start
    refine ⟨b, bytes, rfl, ?_⟩
    constructor <;> first
      | exact fun _ => ht
      | exact Reader.isBlank_of_startsNumber hstarts
      | (rintro rfl; exact absurd hstarts (by decide))

/-! ## Members between two bytes -/

theorem Padded.bytes_append (p : Padded) (rest : Bytes) :
    p.bytes ++ rest = p.before.val ++ (p.core ++ (p.behind.val ++ rest)) := by
  rw [bytes, List.append_assoc, List.append_assoc]

theorem enclosed_append (opening closing : UInt8) (lead : Blanks) (items : List Padded)
    (rest : Bytes) :
    enclosed opening closing lead items ++ rest =
      opening :: (lead.val ++
        ([Byte.comma].intercalate (items.map Padded.bytes) ++ closing :: rest)) := by
  rw [enclosed, List.cons_append, List.append_assoc, List.append_assoc, List.singleton_append]

theorem objectText_append (lead : Blanks) (ms : List Member) (rest : Bytes) :
    objectText lead (ms.map Member.toMemberText) ++ rest =
      Byte.openBrace :: (lead.val ++
        ([Byte.comma].intercalate ((ms.map (·.padded)).map Padded.bytes) ++
          Byte.closeBrace :: rest)) := by
  have hpieces : (ms.map Member.toMemberText).map MemberText.padded = ms.map (·.padded) :=
    List.map_map ..
  rw [objectText, enclosed_append, hpieces]

/-- What a reader of single members makes of an item on top of what came before it. -/
structure Takes {β : Type} (close : UInt8) (step : β → Reader β) (item : Padded)
    (out : β → Option β) : Prop where
  starts : ∃ b bytes, item.core = b :: bytes ∧ Byte.isBlank b = false ∧ b ≠ close
  skips : ∀ acc, Skips (step acc)
  makes : ∀ acc, Makes (step acc) item.core (out acc)

namespace Reader

section

variable {β ι : Type} {close : UInt8} {step : β → Reader β} {piece : ι → Padded}
  {out : β → ι → Option β}

theorem skips_membersFrom (fuel : Nat) (first : Bool) (acc : β) :
    Skips (membersFrom close step (fuel + 1) first acc) :=
  skips_ahead.bind _

/-- Behind an item there is a comma or the closing byte. -/
theorem ends_items (hclose : close = Byte.closeBracket ∨ close = Byte.closeBrace)
    (items : List Padded) (rest : Bytes) :
    Ends (items.flatMap (Byte.comma :: ·.bytes) ++ close :: rest) := by
  cases items with
  | nil => exact ends_cons (.inr hclose) rest
  | cons item items => exact ends_cons (.inl rfl) _

/-- The items behind the first are read, each behind its comma. -/
theorem membersFrom_items (hclose : close = Byte.closeBracket ∨ close = Byte.closeBrace)
    {items : List ι} (h : ∀ i ∈ items, Takes close step (piece i) (out · i)) {fuel : Nat}
    (hfuel : items.length < fuel) (acc : β) (rest : Bytes) :
    (membersFrom close step fuel false acc
        ((items.map piece).flatMap (Byte.comma :: ·.bytes) ++ close :: rest)).toOption =
      (items.foldlM out acc).map (·, rest) := by
  have hblank : Byte.isBlank close = false := by rcases hclose with rfl | rfl <;> rfl
  have hcomma : Byte.comma ≠ close := by rcases hclose with rfl | rfl <;> decide
  -- each item uses up one unit of fuel
  induction items generalizing fuel acc with
  | nil =>
    obtain ⟨fuel, rfl⟩ := Nat.exists_eq_succ_of_ne_zero (Nat.ne_of_gt hfuel)
    rw [List.map_nil, List.flatMap_nil, List.nil_append, membersFrom_close hblank]
    rfl
  | cons i items ih =>
    obtain ⟨fuel, rfl⟩ := Nat.exists_eq_succ_of_ne_zero (Nat.ne_zero_of_lt hfuel)
    obtain ⟨hi, hitems⟩ := List.forall_mem_cons.1 h
    have hfuel' : items.length < fuel := Nat.lt_of_succ_lt_succ hfuel
    obtain ⟨fuel', rfl⟩ := Nat.exists_eq_succ_of_ne_zero (Nat.ne_zero_of_lt hfuel')
    rw [membersFrom, List.map_cons, List.flatMap_cons, List.cons_append, List.cons_append,
      List.append_assoc, bind_apply_of_ok (ahead_cons rfl _)]
    dsimp only
    rw [if_neg hcomma, if_neg Bool.false_ne_true, if_pos rfl]
    rw [bind_apply_of_ok (x := advance) rfl, List.tail_cons, toOption_bind, Padded.bytes_append,
      hi.skips, hi.makes acc _ ((ends_items hclose _ rest).blanks _), List.foldlM_cons]
    cases out acc i with
    | none => rfl
    | some next =>
      exact (congrArg Except.toOption (skips_membersFrom _ _ _ _ _)).trans (ih hitems hfuel' next)

/-- Items are read up to the closing byte and with it. -/
theorem members_items (hclose : close = Byte.closeBracket ∨ close = Byte.closeBrace)
    {items : List ι} (h : ∀ i ∈ items, Takes close step (piece i) (out · i)) (lead : Blanks)
    (start : β) (rest : Bytes) :
    (members close step start (lead.val ++ ([Byte.comma].intercalate
        ((items.map piece).map Padded.bytes) ++ close :: rest))).toOption =
      (items.foldlM out start).map (·, rest) := by
  have hblank : Byte.isBlank close = false := by rcases hclose with rfl | rfl <;> rfl
  unfold members
  rw [skips_membersFrom]
  cases items with
  | nil =>
    rw [List.map_nil, List.map_nil, show [Byte.comma].intercalate [] = [] from rfl,
      List.nil_append, membersFrom_close hblank]
    rfl
  | cons i items =>
    obtain ⟨hi, hitems⟩ := List.forall_mem_cons.1 h
    obtain ⟨b, bytes, hcore, hb, hb'⟩ := hi.starts
    have htail : ((items.map piece).map Padded.bytes).flatMap (Byte.comma :: ·) =
        (items.map piece).flatMap (Byte.comma :: ·.bytes) := List.flatMap_map ..
    -- the fuel is the number of bytes, and each item takes one at least
    have hfuel : items.length < (lead.val ++ ([Byte.comma].intercalate
        (((i :: items).map piece).map Padded.bytes) ++ close :: rest)).length := by
      have hlength := length_le_flatMap_comma ((items.map piece).map Padded.bytes)
      rw [List.map_cons, List.map_cons, intercalate_comma]
      simp only [List.length_append, List.length_cons, List.length_map] at hlength ⊢
      omega
    generalize (lead.val ++ ([Byte.comma].intercalate
      (((i :: items).map piece).map Padded.bytes) ++ close :: rest)).length = fuel at hfuel
    rw [List.map_cons, List.map_cons, intercalate_comma, htail, List.append_assoc,
      Padded.bytes_append, skips_membersFrom, membersFrom, hcore, List.cons_append,
      bind_apply_of_ok (ahead_cons hb _)]
    dsimp only
    rw [if_neg hb', if_pos rfl, ← List.cons_append, ← hcore, toOption_bind,
      hi.makes start _ ((ends_items hclose _ rest).blanks _), List.foldlM_cons]
    obtain ⟨fuel, rfl⟩ := Nat.exists_eq_succ_of_ne_zero (Nat.ne_zero_of_lt hfuel)
    -- the first item has no comma before it; the others are read by the loop
    cases out start i with
    | none => rfl
    | some next =>
      exact (congrArg Except.toOption (skips_membersFrom _ _ _ _ _)).trans
        (membersFrom_items hclose hitems hfuel next rest)

theorem members_elements {out : β → Padded → Option β}
    (hclose : close = Byte.closeBracket ∨ close = Byte.closeBrace) {elements : List Padded}
    (h : ∀ e ∈ elements, Takes close step e (out · e)) (lead : Blanks) (start : β) (rest : Bytes) :
    (members close step start (lead.val ++
        ([Byte.comma].intercalate (elements.map Padded.bytes) ++ close :: rest))).toOption =
      (elements.foldlM out start).map (·, rest) := by
  have htakes : ∀ e ∈ elements, Takes close step (id e) (out · e) := h
  have hitems := members_items hclose htakes lead start rest
  rw [List.map_id] at hitems
  exact hitems

end

end Reader

/-! ## Passing over values -/

/-- An item is shorter than what encloses it. -/
theorem length_item_lt {item : Padded} {items : List Padded} (h : item ∈ items)
    (opening closing : UInt8) (lead : Blanks) :
    item.core.length < (enclosed opening closing lead items).length := by
  -- it is no longer than the items together, to which two bytes are added
  have hitems : item.core.length ≤ ([Byte.comma].intercalate (items.map Padded.bytes)).length := by
    induction items with
    | nil => cases h
    | cons other items ih =>
      rw [List.map_cons, intercalate_comma, List.length_append]
      rcases List.mem_cons.1 h with rfl | h
      · simp only [Padded.bytes, List.length_append]
        omega
      · have hrest := ih h
        cases items with
        | nil => cases h
        | cons next items =>
          rw [List.map_cons, intercalate_comma, List.length_append] at hrest
          rw [List.map_cons, List.flatMap_cons, List.length_append, List.length_cons]
          omega
  simp only [enclosed, List.length_cons, List.length_append]
  omega

namespace Reader

theorem skips_passOne (how : Passing) (array object : Reader Unit) :
    Skips (passOne how array object) := skips_ahead.bind _

theorem skips_pass (how : Passing) (depth : Nat) : Skips (pass how depth) := by
  cases depth with
  | zero => exact skips_passOne _ _ _
  | succ depth => exact skips_passOne _ _ _

theorem makes_word (w : Bytes) : Makes (word w) w (some ()) := by
  intro rest _
  rw [word_append]
  rfl

/-- What is passed over one by one is passed over. -/
theorem foldlM_some {β ι : Type} (b : β) (items : List ι) :
    items.foldlM (fun b _ => some b) b = some b := by
  induction items with
  | nil => rfl
  | cons item items ih => exact ih

theorem members_passed {close : UInt8} {step : Unit → Reader Unit}
    (hclose : close = Byte.closeBracket ∨ close = Byte.closeBrace) {items : List Padded}
    (h : ∀ item ∈ items, Takes close step item some) (lead : Blanks) (rest : Bytes) :
    (members close step () (lead.val ++
      ([Byte.comma].intercalate (items.map Padded.bytes) ++ close :: rest))).toOption =
        some ((), rest) := by
  rw [members_elements hclose h, foldlM_some]
  rfl

/-- A numeral is passed over where a value stands. -/
theorem passOne_numeral {v : Bytes} (h : NumeralText v) (array object : Reader Unit) :
    Makes (passOne .lenient array object) v (some ()) := by
  intro rest hrest
  obtain ⟨b, bytes, rfl, hstarts⟩ := h.exists_start
  have hword : b ≠ Byte.lowerN ∧ b ≠ Byte.lowerT ∧ b ≠ Byte.lowerF := by
    refine ⟨?_, ?_, ?_⟩ <;> (rintro rfl; exact absurd hstarts (by decide))
  unfold passOne
  rw [List.cons_append, bind_apply_of_ok (ahead_cons (isBlank_of_startsNumber hstarts) _)]
  dsimp only
  rw [if_neg hword.1, if_neg hword.2.1, if_neg hword.2.2, if_pos hstarts]
  exact congrArg Except.toOption (passNumber_text h hrest)

theorem skips_colon : Skips colon := skips_ahead.bind _

theorem skips_key {α : Type} (x : Reader α) : Skips (key x) := skips_ahead.bind _

theorem key_quote {α : Type} (x : Reader α) (bytes : Bytes) :
    key x (Byte.quote :: bytes) = x bytes := rfl

/-- The colon behind a key is read, and blanks in front of it do not matter. -/
theorem colon_bytes (gap : Blanks) (bytes : Bytes) :
    colon (gap.val ++ Byte.colon :: bytes) = .ok ((), bytes) := skips_colon gap _

end Reader

theorem MemberText.core_append (m : MemberText) (rest : Bytes) :
    m.padded.core ++ rest = Byte.quote :: (m.key ++ Byte.quote :: (m.gap.val ++
      Byte.colon :: (m.value.before.val ++ (m.value.core ++ rest)))) := by
  simp only [padded, textToken, List.cons_append, List.append_assoc, List.nil_append]

theorem MemberText.length_value_le (m : MemberText) :
    m.value.core.length ≤ m.padded.core.length := by
  simp only [padded, List.length_append, List.length_cons]
  omega

namespace Reader

/-- A member is passed over: its key, whatever it says, and its value. -/
theorem takes_member {m : MemberText} (hkey : TextContent m.key) {read : Reader Unit}
    (hskips : Skips read) (hvalue : Makes read m.value.core (some ())) :
    Takes Byte.closeBrace (fun () => do discard (key passText); colon; read) m.padded some where
  starts := ⟨_, _, rfl, rfl, by decide⟩
  skips _ := ((skips_key passText).map _).bind _
  makes _ rest hrest := by
    have hpass : discard (key passText) (m.padded.core ++ rest) = .ok ((), m.gap.val ++
        Byte.colon :: (m.value.before.val ++ (m.value.core ++ rest))) := by
      rw [MemberText.core_append]
      exact map_apply_of_ok (passText_content hkey _) _
    refine (congrArg Except.toOption (bind_apply_of_ok hpass)).trans ?_
    rw [bind_apply_of_ok (colon_bytes _ _), hskips]
    exact hvalue rest hrest

/-- A value is an item between brackets or braces. -/
theorem takes_value {β : Type} {close : UInt8} {step : β → Reader β} {out : β → Option β}
    {e : Padded} (hvalue : ValueText e.core)
    (hclose : close = Byte.closeBracket ∨ close = Byte.closeBrace)
    (hskips : ∀ acc, Skips (step acc))
    (hmakes : ∀ acc, Makes (step acc) e.core (out acc)) : Takes close step e out where
  starts := by
    obtain ⟨b, bytes, hcore, hleads⟩ := hvalue.exists_leads
    refine ⟨b, bytes, hcore, hleads.blank, ?_⟩
    rcases hclose with rfl | rfl
    · exact hleads.closeBracket
    · exact hleads.closeBrace
  skips := hskips
  makes := hmakes

theorem pass_array (how : Passing) (depth : Nat) (bytes : Bytes) :
    pass how (depth + 1) (Byte.openBracket :: bytes) =
      members Byte.closeBracket (fun () => pass how depth) () bytes := rfl

theorem pass_object (how : Passing) (depth : Nat) (bytes : Bytes) :
    pass how (depth + 1) (Byte.openBrace :: bytes) =
      members Byte.closeBrace (fun () => do discard (key how.text); colon; pass how depth) ()
        bytes := rfl

/-- **Any value is passed over**, whatever its texts and numerals say and however deep it is nested,
and nothing behind it is. -/
theorem makes_pass {v : Bytes} (h : ValueText v) {depth : Nat} (hdepth : v.length ≤ depth) :
    Makes (pass .lenient depth) v (some ()) := by
  -- the items of a value are shorter than the value, so the depth never runs out
  induction h generalizing depth with
  | null => cases depth <;> exact makes_word (utf8 "null")
  | true => cases depth <;> exact makes_word (utf8 "true")
  | false => cases depth <;> exact makes_word (utf8 "false")
  | numeral ht => cases depth <;> exact passOne_numeral ht _ _
  | text hcontent =>
    intro rest _
    have hpass := congrArg Except.toOption (passText_content hcontent rest)
    rw [textToken, List.cons_append, List.append_assoc]
    cases depth <;> exact hpass
  | @array lead elements helements ih =>
    intro rest _
    obtain ⟨depth, rfl⟩ := Nat.exists_eq_succ_of_ne_zero (Nat.ne_zero_of_lt hdepth)
    rw [arrayText, enclosed_append, pass_array]
    refine members_passed (.inl rfl) (fun e he => ?_) lead rest
    have hlength : e.core.length < (arrayText lead elements).length :=
      length_item_lt he Byte.openBracket Byte.closeBracket lead
    have hmakes : Makes (pass .lenient depth) e.core (some ()) := ih e he (by omega)
    exact takes_value (helements e he) (.inl rfl) (fun _ => skips_pass _ depth) fun _ => hmakes
  | @object lead members hkey _ ih =>
    intro rest _
    obtain ⟨depth, rfl⟩ := Nat.exists_eq_succ_of_ne_zero (Nat.ne_zero_of_lt hdepth)
    rw [objectText, enclosed_append, pass_object]
    refine members_passed (.inr rfl) (List.forall_mem_map.2 fun m hm => ?_) lead rest
    have hlength : m.padded.core.length < (objectText lead members).length :=
      length_item_lt (List.mem_map_of_mem hm) Byte.openBrace Byte.closeBrace lead
    have hvalue := m.length_value_le
    have hmakes : Makes (pass .lenient depth) m.value.core (some ()) := ih m hm (by omega)
    exact takes_member (hkey m hm) (skips_pass _ depth) hmakes

/-- A value of no interest is passed over where it stands. -/
theorem passLeniently_value {v : Bytes} (h : ValueText v) (before : Blanks) {rest : Bytes}
    (hrest : Ends rest) :
    (passLeniently (before.val ++ (v ++ rest))).toOption = some ((), rest) := by
  have hdepth : v.length ≤ (before.val ++ (v ++ rest)).length := by
    simp only [List.length_append]
    omega
  unfold passLeniently
  rw [skips_pass]
  exact makes_pass h hdepth rest hrest

/-! ## Values of a wanted kind -/

/-- Nothing at all is accepted. -/
def Refuses {α : Type} (read : Reader α) : Prop := ∀ bytes, (read bytes).toOption = none

section

variable {α β : Type}

theorem refuses_ended : Refuses (ended : Reader α) := fun _ => rfl

theorem refuses_malformed : Refuses (malformed : Reader α) := fun _ => rfl

theorem refuses_mismatch (m : Mismatch) : Refuses (mismatch m : Reader α) := fun _ => rfl

theorem refuses_ite {p : Prop} [Decidable p] {read read' : Reader α} (h : Refuses read)
    (h' : Refuses read') : Refuses (if p then read else read') := by
  split
  · exact h
  · exact h'

/-- What ends with a refusal refuses. -/
theorem refuses_bind (read : Reader α) {f : α → Reader β} (h : ∀ a, Refuses (f a)) :
    Refuses (read >>= f) := by
  intro bytes
  rw [toOption_bind]
  cases read bytes with
  | error => rfl
  | ok r => exact h r.1 r.2

/-- Where the wanted thing does not stand, nothing is made of what does. -/
theorem refuses_unexpected (wanted : String) : Refuses (unexpected wanted : Reader α) := by
  refine refuses_bind ahead fun next => ?_
  -- whatever is found, the fault says so and nothing is made
  cases next with
  | none => exact refuses_ended
  | some b =>
    dsimp only
    refine refuses_ite (refuses_bind _ fun _ => refuses_mismatch _) ?_
    refine refuses_ite (refuses_bind _ fun _ => refuses_mismatch _) ?_
    refine refuses_ite (refuses_bind _ fun _ => refuses_mismatch _) ?_
    refine refuses_ite (refuses_bind _ fun n => ?_) ?_
    · cases n with
      | integer => exact refuses_mismatch _
      | real => exact refuses_mismatch _
    refine refuses_ite (refuses_bind _ fun _ => refuses_bind _ fun _ => refuses_mismatch _) ?_
    refine refuses_ite (refuses_mismatch _) ?_
    exact refuses_ite (refuses_mismatch _) refuses_malformed

end

theorem string_otherwise {b : UInt8} (hblank : Byte.isBlank b = false) (hb : b ≠ Byte.quote)
    (bytes : Bytes) : (string (b :: bytes)).toOption = none := by
  unfold string textAs
  rw [bind_apply_of_ok (ahead_cons hblank _)]
  generalize hnext : some b = next
  split
  · exact absurd (Option.some.inj hnext) hb
  · exact refuses_unexpected _ _

theorem makes_string {content : Bytes} (h : TextContent content) :
    Makes string (textToken content) (spelled? content) := by
  intro rest _
  have htext := toOption_text h rest
  rw [textToken, List.cons_append, List.append_assoc]
  exact htext

/-- The same is made of texts with the same characters. -/
theorem made?_of_sameText {α : Type} {read : Reader α} {g : Option String → Option α}
    (hread : ∀ content, TextContent content →
      Makes read (textToken content) (g (spelled? content))) {v w : Bytes} (h : SameText v w) :
    made? read v = made? read w := by
  obtain ⟨hcontent, hcontent'⟩ := h
  rw [(hread _ hcontent.isText).made, (hread _ hcontent'.isText).made,
    spelled?_congr hcontent hcontent']

theorem steady_string : Steady string where
  skips := skips_ahead.bind _
  settles := by
    intro v hv
    obtain ⟨b, bytes, rfl, hleads⟩ := hv.exists_leads
    by_cases hb : b = Byte.quote
    · obtain ⟨content, hcontent, hv⟩ := hleads.text hb
      exact ⟨spelled? content, by rw [hv]; exact makes_string hcontent⟩
    · exact ⟨none, fun rest _ => string_otherwise hleads.blank hb _⟩

theorem unit_otherwise {b : UInt8} (hblank : Byte.isBlank b = false) (hb : b ≠ Byte.lowerN)
    (bytes : Bytes) : (unit (b :: bytes)).toOption = none := by
  unfold unit
  rw [bind_apply_of_ok (ahead_cons hblank _)]
  generalize hnext : some b = next
  split
  · exact absurd (Option.some.inj hnext) hb
  · exact refuses_unexpected _ _

theorem steady_unit : Steady unit where
  skips := skips_ahead.bind _
  settles := by
    intro v hv
    obtain ⟨b, bytes, rfl, hleads⟩ := hv.exists_leads
    by_cases hb : b = Byte.lowerN
    · refine ⟨some (), ?_⟩
      rw [hleads.null hb]
      exact makes_word (utf8 "null")
    · exact ⟨none, fun rest _ => unit_otherwise hleads.blank hb _⟩

section

variable {α : Type} {read : Reader α}

/-- The word for an absent value is read as one. -/
theorem makes_optional_null : Makes (optional read) (utf8 "null") (some none) :=
  (makes_word (utf8 "null")).bind (f := fun _ => pure none) (g := fun _ => some none)
    fun _ _ _ => rfl

theorem optional_otherwise {b : UInt8} (hblank : Byte.isBlank b = false) (hb : b ≠ Byte.lowerN)
    (bytes : Bytes) : optional read (b :: bytes) = (some <$> read) (b :: bytes) := by
  unfold optional
  rw [bind_apply_of_ok (ahead_cons hblank _)]
  generalize hnext : some b = next
  split
  · exact absurd (Option.some.inj hnext) hb
  · rfl

theorem makes_optional {b : UInt8} {bytes : Bytes} {a? : Option α} (h : Makes read (b :: bytes) a?)
    (hblank : Byte.isBlank b = false) (hb : b ≠ Byte.lowerN) :
    Makes (optional read) (b :: bytes) (a?.map some) := by
  intro rest hrest
  rw [List.cons_append, optional_otherwise hblank hb]
  exact h.map some rest hrest

theorem steady_optional (h : Steady read) : Steady (optional read) where
  skips := skips_ahead.bind _
  settles := by
    intro v hv
    obtain ⟨b, bytes, rfl, hleads⟩ := hv.exists_leads
    by_cases hb : b = Byte.lowerN
    · refine ⟨some none, ?_⟩
      rw [hleads.null hb]
      exact makes_optional_null
    · exact ⟨_, makes_optional (h.makes hv) hleads.blank hb⟩

end

/-- The integer in a range that a numeral denotes. -/
def between? (least greatest : Int) : Numeral → Option Int
  | .integer n => if least ≤ n ∧ n ≤ greatest then some n else none
  | .real _ => none

theorem integer_numeral {b : UInt8} (hb : startsNumber b = true) (wanted : String)
    (least greatest : Int) (bytes : Bytes) :
    (integer wanted least greatest (b :: bytes)).toOption =
      (number (b :: bytes)).toOption.bind fun r =>
        (between? least greatest r.1).map (·, r.2) := by
  unfold integer
  rw [bind_apply_of_ok (ahead_cons (isBlank_of_startsNumber hb) _)]
  dsimp only
  rw [if_pos hb, toOption_bind]
  congr 1
  funext ⟨n, rest⟩
  -- a numeral with a fraction or an exponent is refused, whatever its value
  cases n with
  | integer n =>
    dsimp only [between?]
    split
    · rfl
    · rfl
  | real x => rfl

theorem integer_otherwise {b : UInt8} (hblank : Byte.isBlank b = false)
    (hb : startsNumber b ≠ true) (wanted : String) (least greatest : Int) (bytes : Bytes) :
    (integer wanted least greatest (b :: bytes)).toOption = none := by
  unfold integer
  rw [bind_apply_of_ok (ahead_cons hblank _)]
  dsimp only
  rw [if_neg hb]
  exact refuses_unexpected _ _

theorem steady_integer (wanted : String) (least greatest : Int) :
    Steady (integer wanted least greatest) where
  skips := skips_ahead.bind _
  settles := by
    intro v hv
    obtain ⟨b, bytes, rfl, hleads⟩ := hv.exists_leads
    -- only what begins like a numeral can be an integer
    by_cases hb : startsNumber b = true
    · obtain ⟨n?, hn⟩ := exists_number (hleads.numeral hb)
      refine ⟨n?.bind (between? least greatest), fun rest hrest => ?_⟩
      have hnumber := hn rest hrest
      rw [List.cons_append] at hnumber ⊢
      rw [integer_numeral hb, hnumber]
      cases n? with
      | none => rfl
      | some n => rfl
    · exact ⟨none, fun rest _ => integer_otherwise hleads.blank hb _ _ _ _⟩

theorem steady_map {α β : Type} {read : Reader α} (h : Steady read) (f : α → β) :
    Steady (f <$> read) where
  skips := h.skips.map f
  settles := fun hv => ⟨_, (h.makes hv).map f⟩

theorem steady_int64 : Steady int64 := steady_map (steady_integer _ _ _) _

/-! ## Lists -/

section

variable {α : Type} {read : (depth : Nat) → Reader α}

/-- The values of an array, if something is made of each. -/
def gathered? (read : Reader α) (elements : List Padded) : Option (List α) :=
  (elements.foldlM (fun done e => (made? read e.core).map (· :: done)) []).map List.reverse

/-- Elements of which the same is made, one by one, make the same list. -/
theorem gathered?_of_forall₂ {read : Reader α} {es es' : List Padded}
    (h : List.Forall₂ (fun e e' => ∀ a, made? read e.core = some a → made? read e'.core = some a)
      es es') {as : List α} (hgathered : gathered? read es = some as) :
    gathered? read es' = some as := by
  obtain ⟨done, hdone, rfl⟩ := Option.map_eq_some_iff.1 hgathered
  refine Option.map_eq_some_iff.2 ⟨done, ?_, rfl⟩
  clear hgathered
  -- elements are gathered from any start, for the induction
  generalize ([] : List α) = start at hdone ⊢
  induction h generalizing start with
  | nil => exact hdone
  | cons he _ ih =>
    rw [List.foldlM_cons] at hdone ⊢
    obtain ⟨next, hnext, hdone⟩ := Option.bind_eq_some_iff.1 hdone
    obtain ⟨a, ha, rfl⟩ := Option.map_eq_some_iff.1 hnext
    rw [he a ha]
    exact ih (a :: start) hdone

theorem gathered?_congr {read : Reader α} {es es' : List Padded}
    (h : List.Forall₂ (fun e e' => made? read e.core = made? read e'.core) es es') :
    gathered? read es = gathered? read es' := by
  ext as
  constructor
  · exact gathered?_of_forall₂ (h.imp fun e e' heq a ha => heq ▸ ha)
  · exact gathered?_of_forall₂ (h.flip.imp fun e e' heq a ha => heq ▸ ha)

/-- What is made of an array is made of its elements, one level further down. -/
theorem makes_list (h : ∀ depth, Steady (read depth)) {elements : List Padded}
    (hvalue : ∀ e ∈ elements, ValueText e.core) (lead : Blanks) (depth : Nat) :
    Makes (list read (depth + 1)) (arrayText lead elements) (gathered? (read depth) elements) := by
  intro rest _
  have hlist : list read (depth + 1) (arrayText lead elements ++ rest) =
      (List.reverse <$> members Byte.closeBracket (fun done => (· :: done) <$> read depth) [])
        (lead.val ++ ([Byte.comma].intercalate (elements.map Padded.bytes) ++
          Byte.closeBracket :: rest)) := by
    rw [arrayText, enclosed_append]
    rfl
  -- each element is put in front, and the list is reversed at its end
  have htakes : ∀ e ∈ elements, Takes Byte.closeBracket (fun done => (· :: done) <$> read depth) e
      fun done => (made? (read depth) e.core).map (· :: done) := by
    intro e he
    exact takes_value (hvalue e he) (.inl rfl) (fun _ => (h depth).skips.map _)
      fun _ => ((h depth).makes (hvalue e he)).map _
  rw [hlist, toOption_map, members_elements (.inl rfl) htakes, gathered?]
  cases elements.foldlM (fun done e => (made? (read depth) e.core).map (· :: done)) [] with
  | none => rfl
  | some done => rfl

theorem list_otherwise {b : UInt8} (hblank : Byte.isBlank b = false) (hb : b ≠ Byte.openBracket)
    (depth : Nat) (bytes : Bytes) : (list read depth (b :: bytes)).toOption = none := by
  unfold list
  rw [bind_apply_of_ok (ahead_cons hblank _)]
  generalize hnext : some b = next
  split
  · exact absurd (Option.some.inj hnext) hb
  · exact refuses_unexpected _ _

theorem steady_list (h : ∀ depth, Steady (read depth)) (depth : Nat) :
    Steady (list read depth) where
  skips := skips_ahead.bind _
  settles := by
    intro v hv
    obtain ⟨b, bytes, rfl, hleads⟩ := hv.exists_leads
    by_cases hb : b = Byte.openBracket
    · obtain ⟨lead, elements, hvalue, hv⟩ := hleads.array hb
      cases depth with
      | zero => exact ⟨none, fun rest _ => by rw [hv]; rfl⟩
      | succ depth => exact ⟨_, by rw [hv]; exact makes_list h hvalue lead depth⟩
    · exact ⟨none, fun rest _ => list_otherwise hleads.blank hb depth _⟩

end

/-! ## Whole documents -/

theorem toOption_eq_some {α : Type} {x : Except Fault α} {a : α} :
    x.toOption = some a ↔ x = .ok a := by
  cases x with
  | error => exact ⟨nofun, nofun⟩
  | ok => exact ⟨fun h => congrArg Except.ok (Option.some.inj h), fun h => by rw [h]; rfl⟩

/-- What a document says is what its value is read as, whatever blanks are around it. -/
theorem document_padded {α : Type} {read : (depth : Nat) → Reader α} (h : Steady (read maxDepth))
    {p : Padded} (hvalue : ValueText p.core) :
    (document read p.bytes).toOption = made? (read maxDepth) p.core := by
  have hbehind : Ends p.behind.val := by
    have hends := ends_nil.blanks p.behind
    rw [List.append_nil] at hends
    exact hends
  -- nothing but blanks may stand behind the value
  have hblank : p.behind.val.dropWhile Byte.isBlank = [] := by
    have hdrop : (p.behind.val ++ []).dropWhile Byte.isBlank = [] :=
      List.dropWhile_append_of_pos p.behind.2
    rw [List.append_nil] at hdrop
    exact hdrop
  have hread := h.makes hvalue p.behind.val hbehind
  have hskips := h.skips p.before (p.core ++ p.behind.val)
  unfold document Padded.bytes
  rw [hskips]
  rcases hresult : read maxDepth (p.core ++ p.behind.val) with _ | ⟨a, rest⟩
  · rw [hresult] at hread
    exact (Option.map_eq_none_iff.1 hread.symm).symm
  · rw [hresult] at hread
    obtain ⟨a', hmade, heq⟩ := Option.map_eq_some_iff.1 hread.symm
    obtain ⟨rfl, rfl⟩ := Prod.mk.inj heq
    rw [hmade]
    change (if _ then _ else _ : Except Fault α).toOption = _
    rw [hblank]
    rfl

end Reader

end StreamControl.Json
