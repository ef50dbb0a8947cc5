import StreamControl.Json.Passing
import StreamControl.Proofs.Json.Spellings
import StreamControl.Proofs.Json.Values

/-!
# Reading texts and numerals in any spelling

What a reader makes of a token does not depend on what comes after the token: a text ends with its
quote, and a numeral where something follows that belongs to no numeral (`Ends`).  The content of a
text is read as the text that it spells, or refused if it spells none (`textContent_of_spells`,
`TextContent.spells_or`); a numeral may be out of range and is refused then (`exists_number`).  Passing
over a token takes exactly the token, whatever it says.
-/

namespace StreamControl.Json

/-- What may come behind a value, with blanks in between or not. -/
def Ends (rest : Bytes) : Prop :=
  ∀ b ∈ rest.head?,
    Byte.isBlank b = true ∨ b = Byte.comma ∨ b = Byte.closeBracket ∨ b = Byte.closeBrace

theorem ends_nil : Ends [] := by
  rintro _ ⟨⟩

theorem ends_cons {b : UInt8} (h : b = Byte.comma ∨ b = Byte.closeBracket ∨ b = Byte.closeBrace)
    (rest : Bytes) : Ends (b :: rest) := by
  rintro _ ⟨⟩
  exact .inr h

/-- Blanks in between change nothing. -/
theorem Ends.blanks {rest : Bytes} (h : Ends rest) (ws : Blanks) : Ends (ws.val ++ rest) := by
  obtain ⟨ws, hws⟩ := ws
  cases ws with
  | nil => exact h
  | cons b ws =>
    rintro _ ⟨⟩
    exact .inl (hws b List.mem_cons_self)

theorem Ends.detached {rest : Bytes} (h : Ends rest) : Detached rest := by
  intro b hb
  rcases h b hb with hblank | rfl | rfl | rfl
  · simp only [Byte.isBlank, Bool.or_eq_true, decide_eq_true_eq] at hblank
    rcases hblank with ((rfl | rfl) | rfl) | rfl <;> decide
  all_goals decide

namespace Reader

/-- What two readers in a row give, without the reason why they give nothing. -/
theorem toOption_bind {α β : Type} (x : Reader α) (f : α → Reader β) (bytes : Bytes) :
    ((x >>= f) bytes).toOption = (x bytes).toOption.bind fun r => (f r.1 r.2).toOption := by
  change (Except.bind (x bytes) fun r => f r.1 r.2).toOption = _
  cases x bytes with
  | error => rfl
  | ok => rfl

theorem toOption_map {α β : Type} (f : α → β) (x : Reader α) (bytes : Bytes) :
    ((f <$> x) bytes).toOption = (x bytes).toOption.map fun r => (f r.1, r.2) := by
  rw [map_eq_pure_bind, toOption_bind]
  cases x bytes with
  | error => rfl
  | ok => rfl

/-! ## Texts -/

/-- Four hexadecimal digits are read as their unit. -/
theorem hexUnit_of {digits : Bytes} {n : Nat} (h : HexUnit digits n) (rest : Bytes) :
    hexUnit (digits ++ rest) = .ok (n, rest) := by
  obtain ⟨ha, hb, hc, hd⟩ := h
  simp only [List.cons_append, List.nil_append, hexUnit, ha, hb, hc, hd]

/-- A text goes on behind an escape, or is refused with it. -/
theorem textContent_backslash (bytes : Bytes) :
    (textContent (Byte.backslash :: bytes)).toOption =
      (escape bytes).toOption.bind fun r =>
        (textContent r.2).toOption.map fun s => (r.1 ++ s.1, s.2) := by
  have hquote : ¬ Byte.backslash = Byte.quote := by decide
  rw [textContent]
  simp only [hquote, if_false, if_true]
  -- the escape decides first whether there is a text at all
  split
  · rename_i hescape
    rw [hescape]
    rfl
  · rename_i chars rest hescape
    rw [hescape]
    cases h : textContent rest with
    | error => simp [Except.toOption, h]
    | ok => simp [Except.toOption, h]

theorem textContent_of_escape {bytes chars rest : Bytes}
    (h : (escape bytes).toOption = some (chars, rest)) :
    (textContent (Byte.backslash :: bytes)).toOption =
      (textContent rest).toOption.map fun r => (chars ++ r.1, r.2) := by
  rw [textContent_backslash, h]
  rfl

theorem textContent_of_refused {bytes : Bytes} (h : (escape bytes).toOption = none) :
    (textContent (Byte.backslash :: bytes)).toOption = none := by
  rw [textContent_backslash, h]
  rfl

theorem textContent_plain {b : UInt8} (h : Plain b) (bytes : Bytes) :
    (textContent (b :: bytes)).toOption =
      (textContent bytes).toOption.map fun r => (b :: r.1, r.2) := by
  rw [textContent_cons h.2.1 h.2.2 h.1]
  cases textContent bytes with
  | error => rfl
  | ok => rfl

/-- A letter that stands for a character is not the one in front of a unit. -/
theorem escape_short {b c : UInt8} (h : shortEscape? b = some c) (bytes : Bytes) :
    (escape (b :: bytes)).toOption = some ([c], bytes) := by
  unfold escape
  -- the escapes are told apart by their first byte; a short one is not `u`
  split
  · contradiction
  · rename_i hcons
    obtain ⟨rfl, -⟩ := List.cons.inj hcons
    cases h
  · rename_i hcons
    obtain ⟨rfl, rfl⟩ := List.cons.inj hcons
    rw [h]
    rfl

/-- One unit that is a character. -/
theorem escape_unit {digits : Bytes} {n : Nat} (h : HexUnit digits n)
    (hleading : isLeading n = false) (htrailing : isTrailing n = false) (rest : Bytes) :
    (escape (Byte.lowerU :: (digits ++ rest))).toOption =
      some (utf8 (Char.ofNat n).toString, rest) := by
  change (unicodeEscape (digits ++ rest)).toOption = _
  unfold unicodeEscape
  rw [bind_apply_of_ok (hexUnit_of h rest)]
  simp only [hleading, htrailing, Bool.false_eq_true, if_false]
  rfl

/-- A second half alone is refused. -/
theorem escape_trailing {digits : Bytes} {n : Nat} (h : HexUnit digits n)
    (htrailing : isTrailing n = true) (rest : Bytes) :
    (escape (Byte.lowerU :: (digits ++ rest))).toOption = none := by
  change (unicodeEscape (digits ++ rest)).toOption = _
  unfold unicodeEscape
  rw [bind_apply_of_ok (hexUnit_of h rest)]
  simp only [htrailing, if_true]
  rfl

/-- A first half goes on with a second one. -/
theorem escape_leading {digits : Bytes} {n : Nat} (h : HexUnit digits n)
    (hleading : isLeading n = true) (rest : Bytes) :
    (escape (Byte.lowerU :: (digits ++ rest))).toOption =
      (trailingUnit rest).toOption.map fun r =>
        (utf8 (Char.ofNat (pairedCode n r.1)).toString, r.2) := by
  -- first and second halves lie in ranges of their own
  have htrailing : isTrailing n = false := by
    simp only [isLeading, isTrailing, Bool.and_eq_true, decide_eq_true_eq,
      Bool.and_eq_false_iff, decide_eq_false_iff_not] at hleading ⊢
    omega
  change (unicodeEscape (digits ++ rest)).toOption = _
  unfold unicodeEscape
  rw [bind_apply_of_ok (hexUnit_of h rest)]
  simp only [hleading, htrailing, Bool.false_eq_true, if_false, if_true]
  rw [toOption_bind]
  cases trailingUnit rest with
  | error => rfl
  | ok => rfl

/-- The second half is a unit behind its backslash and letter. -/
theorem trailingUnit_unit {digits : Bytes} {n : Nat} (h : HexUnit digits n) (rest : Bytes) :
    (trailingUnit (Byte.backslash :: Byte.lowerU :: (digits ++ rest))).toOption =
      if isTrailing n then some (n, rest) else none := by
  have hstep : trailingUnit (Byte.backslash :: Byte.lowerU :: (digits ++ rest)) =
      (hexUnit (digits ++ rest)).bind fun r =>
        if isTrailing r.1 then .ok (r.1, r.2) else .error .malformed := rfl
  rw [hstep, hexUnit_of h rest]
  dsimp only [Except.bind]
  split
  · rfl
  · rfl

/-- A first half and the unit behind it are a character if that unit is a second half. -/
theorem escape_pair {digits digits' : Bytes} {n n' : Nat} (h : HexUnit digits n)
    (h' : HexUnit digits' n') (hleading : isLeading n = true) (rest : Bytes) :
    (escape (Byte.lowerU ::
        (digits ++ Byte.backslash :: Byte.lowerU :: (digits' ++ rest)))).toOption =
      if isTrailing n' then
        some (utf8 (Char.ofNat (pairedCode n n')).toString, rest)
      else none := by
  rw [escape_leading h hleading, trailingUnit_unit h']
  split
  · rfl
  · rfl

theorem trailingUnit_of_ne {b : UInt8} (h : b ≠ Byte.backslash) (rest : Bytes) :
    (trailingUnit (b :: rest)).toOption = none := by
  unfold trailingUnit
  split <;> simp_all [Except.toOption]

theorem trailingUnit_short {b c : UInt8} (h : shortEscape? b = some c) (rest : Bytes) :
    (trailingUnit (Byte.backslash :: b :: rest)).toOption = none := by
  have hunit : b ≠ Byte.lowerU := by
    rintro rfl
    cases h
  unfold trailingUnit
  split <;> simp_all [Except.toOption]

/-- A first half is refused where no second half follows. -/
theorem escape_lone {digits : Bytes} {n : Nat} (h : HexUnit digits n)
    (hleading : isLeading n = true) {rest : Bytes} (hnone : (trailingUnit rest).toOption = none) :
    (escape (Byte.lowerU :: (digits ++ rest))).toOption = none := by
  rw [escape_leading h hleading, hnone]
  rfl

/-- What a text spells is read, up to the closing quote and with it. -/
theorem textContent_of_spells {content text : Bytes} (h : Spells content text) (rest : Bytes) :
    (textContent (content ++ Byte.quote :: rest)).toOption = some (text, rest) := by
  -- one case for each way to spell: a plain byte, a short escape, a unit, a pair of units
  induction h with
  | nil =>
    rw [List.nil_append, textContent]
    rfl
  | plain hb _ ih =>
    rw [List.cons_append, textContent_plain hb, ih]
    rfl
  | short hb _ ih =>
    rw [List.cons_append, List.cons_append, textContent_of_escape (escape_short hb _), ih]
    rfl
  | unit hn hleading htrailing _ ih =>
    rw [List.cons_append, List.cons_append, List.append_assoc,
      textContent_of_escape (escape_unit hn hleading htrailing _), ih]
    rfl
  | pair hn hn' hleading htrailing _ ih =>
    rw [List.cons_append, List.cons_append, List.append_assoc, List.cons_append, List.cons_append,
      List.append_assoc, textContent_of_escape ((escape_pair hn hn' hleading _).trans
        (if_pos htrailing)), ih]
    rfl

end Reader

/-- What stands between quotes is refused, whatever comes behind. -/
def Refused (content : Bytes) : Prop :=
  ∀ rest, (Reader.textContent (content ++ Byte.quote :: rest)).toOption = none

/-- What goes on like a content that is refused is refused. -/
theorem Refused.of_tail {content tail : Bytes} (h : Refused tail) (chars : Bytes)
    (hread : ∀ rest, (Reader.textContent (content ++ Byte.quote :: rest)).toOption =
      (Reader.textContent (tail ++ Byte.quote :: rest)).toOption.map fun r =>
        (chars ++ r.1, r.2)) : Refused content := by
  intro rest
  rw [hread, h]
  rfl

/-- A text goes on with a second half, or with something that is none. -/
theorem TextContent.trailing_or {tail : Bytes} (h : TextContent tail) :
    (∃ digits n left, HexUnit digits n ∧ Reader.isTrailing n = true ∧ TextContent left ∧
        tail = Byte.backslash :: Byte.lowerU :: (digits ++ left)) ∨
      ∀ rest, (Reader.trailingUnit (tail ++ Byte.quote :: rest)).toOption = none := by
  cases h with
  | nil => exact .inr fun rest => Reader.trailingUnit_of_ne (by decide) rest
  | plain hb _ => exact .inr fun rest => Reader.trailingUnit_of_ne hb.2.2 _
  | short hb _ => exact .inr fun rest => Reader.trailingUnit_short hb _
  | @unit digits left n hn hleft =>
    -- a unit behind a first half counts only if it is a second half
    rcases htrailing : Reader.isTrailing n with _ | _
    · refine .inr fun rest => ?_
      rw [List.cons_append, List.cons_append, List.append_assoc, Reader.trailingUnit_unit hn,
        htrailing]
      rfl
    · exact .inl ⟨digits, n, left, hn, htrailing, hleft, rfl⟩

/-- A unit is a character, or a half that needs the other half behind it. -/
theorem TextContent.unit_spells_or {digits tail : Bytes} {n : Nat} (hn : HexUnit digits n)
    (htail : TextContent tail)
    (ih : ∀ left : Bytes, left.length ≤ tail.length → TextContent left →
      (∃ text, Spells left text) ∨ Refused left) :
    (∃ text, Spells (Byte.backslash :: Byte.lowerU :: (digits ++ tail)) text) ∨
      Refused (Byte.backslash :: Byte.lowerU :: (digits ++ tail)) := by
  have hbytes : ∀ digits tail rest : Bytes,
      Byte.backslash :: Byte.lowerU :: (digits ++ tail) ++ rest =
        Byte.backslash :: Byte.lowerU :: (digits ++ (tail ++ rest)) := by
    intro digits tail rest
    rw [List.cons_append, List.cons_append, List.append_assoc]
  -- a second half alone is refused, a first half needs the other one behind it
  rcases htrailing : Reader.isTrailing n with _ | _
  · rcases hleading : Reader.isLeading n with _ | _
    · refine (ih tail (Nat.le_refl _) htail).imp ?_ fun hrefused => ?_
      · rintro ⟨text, hspells⟩
        exact ⟨_, .unit hn hleading htrailing hspells⟩
      · refine hrefused.of_tail (utf8 (Char.ofNat n).toString) fun rest => ?_
        rw [hbytes]
        exact Reader.textContent_of_escape (Reader.escape_unit hn hleading htrailing _)
    · rcases htail.trailing_or with ⟨digits', n', left, hn', htrailing', hleft, rfl⟩ | hnone
      · -- what stands behind the pair is shorter, so the induction reaches it
        have hlength : left.length ≤
            (Byte.backslash :: Byte.lowerU :: (digits' ++ left)).length := by
          simp only [List.length_cons, List.length_append]
          omega
        refine (ih left hlength hleft).imp ?_ fun hrefused => ?_
        · rintro ⟨text, hspells⟩
          exact ⟨_, .pair hn hn' hleading htrailing' hspells⟩
        · refine hrefused.of_tail
            (utf8 (Char.ofNat (Reader.pairedCode n n')).toString) fun rest => ?_
          rw [hbytes, hbytes]
          exact Reader.textContent_of_escape ((Reader.escape_pair hn hn' hleading _).trans
            (if_pos htrailing'))
      · refine .inr fun rest => ?_
        rw [hbytes]
        exact Reader.textContent_of_refused (Reader.escape_lone hn hleading (hnone rest))
  · refine .inr fun rest => ?_
    rw [hbytes]
    exact Reader.textContent_of_refused (Reader.escape_trailing hn htrailing _)

/-- What may stand between quotes spells a text or is refused. -/
theorem TextContent.spells_or {content : Bytes} (h : TextContent content) :
    (∃ text, Spells content text) ∨ Refused content := by
  -- by length, because the two halves of a character are read at once
  induction hlength : content.length using Nat.strongRecOn generalizing content with
  | _ length ih =>
    subst hlength
    cases h with
    | nil => exact .inl ⟨[], .nil⟩
    | @plain b tail hb htail =>
      refine (ih _ (Nat.lt_succ_self _) htail rfl).imp ?_ fun hrefused => ?_
      · rintro ⟨text, hspells⟩
        exact ⟨_, .plain hb hspells⟩
      · exact hrefused.of_tail [b] fun rest => Reader.textContent_plain hb _
    | short hb htail =>
      refine (ih _ (by simp only [List.length_cons]; omega) htail rfl).imp ?_ fun hrefused => ?_
      · rintro ⟨text, hspells⟩
        exact ⟨_, .short hb hspells⟩
      · exact hrefused.of_tail _ fun rest => Reader.textContent_of_escape (Reader.escape_short hb _)
    | unit hn htail =>
      refine htail.unit_spells_or hn fun left hleft hcontent => ih _ ?_ hcontent rfl
      simp only [List.length_cons, List.length_append]
      omega

/-- Valid bytes are those of their text. -/
theorem text?_eq_some_iff {bytes : Bytes} {s : String} : bytes.text? = some s ↔ bytes = utf8 s := by
  constructor
  · intro h
    unfold Bytes.text? String.fromUTF8? at h
    split at h
    · cases h
      simp [utf8, String.fromUTF8]
    · cases h
  · rintro rfl
    exact text?_utf8 s

/-- The text that stands between quotes, if it is one. -/
def spelled? (content : Bytes) : Option String :=
  (Reader.text (content ++ [Byte.quote])).toOption.map (·.1)

/-- A text is read up to its closing quote, and what comes behind does not matter. -/
theorem toOption_text {content : Bytes} (h : TextContent content) (rest : Bytes) :
    (Reader.text (content ++ Byte.quote :: rest)).toOption =
      (spelled? content).map (·, rest) := by
  unfold spelled? Reader.text
  rw [Reader.toOption_bind, Reader.toOption_bind]
  -- either the content spells something, with any bytes behind it, or it is refused with all of
  -- them
  rcases h.spells_or with ⟨text, hspells⟩ | hrefused
  · rw [Reader.textContent_of_spells hspells, Reader.textContent_of_spells hspells]
    dsimp only [Option.bind_some]
    cases text.text? with
    | none => rfl
    | some s => rfl
  · rw [hrefused, hrefused]
    rfl

/-- Whichever characters are escaped, the same text is read. -/
theorem spelled?_congr {content content' text : Bytes} (h : Spells content text)
    (h' : Spells content' text) : spelled? content = spelled? content' := by
  unfold spelled? Reader.text
  rw [Reader.toOption_bind, Reader.toOption_bind, Reader.textContent_of_spells h,
    Reader.textContent_of_spells h']

/-- What is read between quotes is what they spell. -/
theorem spelled?_eq_some_iff {content : Bytes} (h : TextContent content) {s : String} :
    spelled? content = some s ↔ Spells content (utf8 s) := by
  unfold spelled? Reader.text
  rw [Reader.toOption_bind]
  constructor
  · rcases h.spells_or with ⟨text, hspells⟩ | hrefused
    · rw [Reader.textContent_of_spells hspells]
      intro hread
      -- the bytes that are spelled may fail to be a text
      rcases htext : text.text? with _ | s'
      · rw [Option.bind_some, htext] at hread
        cases hread
      · rw [Option.bind_some, htext] at hread
        cases hread
        rw [← text?_eq_some_iff.1 htext]
        exact hspells
    · rw [hrefused]
      intro hread
      cases hread
  · intro hspells
    rw [Reader.textContent_of_spells hspells]
    dsimp only [Option.bind_some]
    rw [text?_utf8]
    rfl

theorem Spells.unique {content : Bytes} {s t : String} (h : Spells content (utf8 s))
    (h' : Spells content (utf8 t)) : s = t := by
  have hs := (spelled?_eq_some_iff h.isText).2 h
  have ht := (spelled?_eq_some_iff h.isText).2 h'
  exact Option.some.inj (hs.symm.trans ht)

/-! ## Numerals -/

namespace Numeral

/-- Digits are gathered as long as they fit, whatever comes behind the last one. -/
theorem exists_gather (m : Nat) {ds : Bytes} (hds : DigitBytes ds) :
    ∃ total taken left, taken + left.length = ds.length ∧ DigitBytes left ∧
      ∀ rest, Apart rest → gather m (ds ++ rest) = (total, taken, left ++ rest) := by
  induction ds generalizing m with
  | nil =>
    refine ⟨m, 0, [], rfl, hds, fun rest hrest => ?_⟩
    rcases rest with _ | ⟨b, rest⟩
    · rfl
    · rw [List.nil_append, gather, hrest b rfl]
  | cons b ds ih =>
    obtain ⟨d, hd⟩ := Option.isSome_iff_exists.1 (hds b List.mem_cons_self)
    obtain ⟨total, taken, left, hcount, hleft, hgather⟩ :=
      ih (m * 10 + d) fun c hc => hds c (List.mem_cons_of_mem _ hc)
    -- the first digit that does not fit is the first of those left
    by_cases hfits : m * 10 + d ≤ maxWord
    · refine ⟨total, taken + 1, left, by simp only [List.length_cons]; omega, hleft,
        fun rest hrest => ?_⟩
      rw [List.cons_append, gather, hd]
      dsimp only
      rw [if_pos hfits, hgather rest hrest]
    · refine ⟨m, 0, b :: ds, Nat.zero_add _, hds, fun rest hrest => ?_⟩
      rw [List.cons_append, gather, hd]
      dsimp only
      rw [if_neg hfits]

theorem countDigits_digits {ds : Bytes} (hds : DigitBytes ds) {rest : Bytes} (hrest : Apart rest) :
    countDigits (ds ++ rest) = (ds.length, rest) := by
  induction ds with
  | nil => exact countDigits_of_apart hrest
  | cons b ds ih =>
    rw [List.cons_append, countDigits, if_pos (hds b List.mem_cons_self),
      ih fun c hc => hds c (List.mem_cons_of_mem _ hc)]
    rfl

theorem exists_gatherAll (m : Nat) {ds : Bytes} (hds : DigitBytes ds) :
    ∃ total, ∀ rest, Apart rest → gatherAll m (ds ++ rest) = (total, rest) := by
  induction ds generalizing m with
  | nil =>
    refine ⟨m, fun rest hrest => ?_⟩
    -- the run of digits ends where the next byte is none
    rcases rest with _ | ⟨b, rest⟩
    · rfl
    · rw [List.nil_append, gatherAll, hrest b rfl]
  | cons b ds ih =>
    obtain ⟨d, hd⟩ := Option.isSome_iff_exists.1 (hds b List.mem_cons_self)
    obtain ⟨total, htotal⟩ := ih (m * 10 + d) fun c hc => hds c (List.mem_cons_of_mem _ hc)
    refine ⟨total, fun rest hrest => ?_⟩
    rw [List.cons_append, gatherAll, hd]
    exact htotal rest hrest

end Numeral

namespace Reader

open Numeral

/-- The digits before the point are read, whatever comes behind them. -/
theorem exists_unsigned (negative : Bool) {whole : Bytes} (h : WholeText whole) :
    ∃ m dropped, ∀ rest, Apart rest →
      unsigned negative (whole ++ rest) = integerTail negative m dropped rest := by
  cases h with
  | zero => exact ⟨0, 0, fun rest hrest => unsigned_zero hrest negative⟩
  | @digits b d ds hb hd hds =>
    obtain ⟨total, taken, left, -, hleft, hgather⟩ := exists_gather d hds
    refine ⟨total, left.length, fun rest hrest => ?_⟩
    rw [List.cons_append, unsigned_of_digit hb hd, hgather rest hrest]
    dsimp only
    rw [countDigits_digits hleft hrest]

/-- The digits behind the point are read, whatever comes behind them. -/
theorem exists_fraction {ds : Bytes} (hne : ds ≠ []) (hds : DigitBytes ds) (negative : Bool)
    (m : Nat) (e : Int) :
    ∃ m' e', ∀ rest, Apart rest →
      fraction negative m e (ds ++ rest) = realTail negative m' e' rest := by
  obtain ⟨total, taken, left, hcount, hleft, hgather⟩ := exists_gather m hds
  refine ⟨total, e - taken, fun rest hrest => ?_⟩
  -- at least one digit stands behind the point, gathered or left
  have hsome : taken + left.length ≠ 0 := by
    rw [hcount]
    exact fun hzero => hne (List.length_eq_zero_iff.1 hzero)
  unfold fraction
  rw [hgather rest hrest]
  dsimp only
  rw [countDigits_digits hleft hrest]
  dsimp only
  rw [if_neg hsome]

theorem exists_exponentDigits {ds : Bytes} (hne : ds ≠ []) (hds : DigitBytes ds) :
    ∃ n, ∀ rest, Apart rest → exponentDigits (ds ++ rest) = .ok (n, rest) := by
  rcases ds with _ | ⟨b, ds⟩
  · contradiction
  · obtain ⟨d, hd⟩ := Option.isSome_iff_exists.1 (hds b List.mem_cons_self)
    obtain ⟨total, htotal⟩ := exists_gatherAll d fun c hc => hds c (List.mem_cons_of_mem _ hc)
    refine ⟨total, fun rest hrest => ?_⟩
    rw [List.cons_append, exponentDigits, hd]
    exact congrArg Except.ok (htotal rest hrest)

/-- An exponent without a sign begins with a digit. -/
theorem exponent_digit {b : UInt8} (hb : (Byte.digit? b).isSome = true) (bytes : Bytes) :
    exponent (b :: bytes) = (Int.ofNat <$> exponentDigits) (b :: bytes) := by
  unfold exponent
  split
  · rename_i hcons
    rw [(List.cons.inj hcons).1] at hb
    cases hb
  · rename_i hcons
    rw [(List.cons.inj hcons).1] at hb
    cases hb
  · rfl

/-- The digits of an exponent are read with their sign. -/
theorem exists_exponent {sign ds : Bytes} (hsign : SignText sign) (hne : ds ≠ [])
    (hds : DigitBytes ds) :
    ∃ k, ∀ rest, Apart rest → exponent (sign ++ ds ++ rest) = .ok (k, rest) := by
  obtain ⟨n, hn⟩ := exists_exponentDigits hne hds
  -- the sign is optional, and a plus changes nothing
  cases hsign with
  | none =>
    obtain ⟨b, ds, rfl⟩ := List.exists_cons_of_ne_nil hne
    refine ⟨.ofNat n, fun rest hrest => ?_⟩
    exact (exponent_digit (hds b List.mem_cons_self) _).trans
      (map_apply_of_ok (hn rest hrest) Int.ofNat)
  | plus =>
    exact ⟨.ofNat n, fun rest hrest => map_apply_of_ok (hn rest hrest) Int.ofNat⟩
  | minus =>
    exact ⟨.negOfNat n, fun rest hrest => map_apply_of_ok (hn rest hrest) Int.negOfNat⟩

/-- A double is in range or refused. -/
theorem exists_real (negative : Bool) (m : Nat) (e : Int) :
    ∃ n? : Option Numeral, ∀ rest, (real negative m e rest).toOption = n?.map (·, rest) := by
  refine ⟨(scaled? m e).map fun x => .real (.ofMagnitude negative x), fun rest => ?_⟩
  unfold real
  cases scaled? m e with
  | none => rfl
  | some x => rfl

/-- The end of a double is read, and what comes behind it does not matter. -/
theorem exists_realTail {x : Bytes} (h : ExponentText x) (negative : Bool) (m : Nat) (e : Int) :
    ∃ n? : Option Numeral, ∀ rest, Ends rest →
      (realTail negative m e (x ++ rest)).toOption = n?.map (·, rest) := by
  -- without an exponent the double ends here, with one its digits are read first
  cases h with
  | none =>
    obtain ⟨n?, hn⟩ := exists_real negative m e
    refine ⟨n?, fun rest hrest => ?_⟩
    have hend := realTail_of_detached hrest.detached negative m e
    exact (congrArg Except.toOption hend).trans (hn rest)
  | digits he hsign hne hds =>
    obtain ⟨k, hk⟩ := exists_exponent hsign hne hds
    obtain ⟨n?, hn⟩ := exists_real negative m (e + k)
    refine ⟨n?, fun rest hrest => ?_⟩
    have hread := hn rest
    rw [← bind_apply_of_ok (f := fun k => real negative m (e + k))
      (hk rest hrest.detached.noDigit)] at hread
    rcases he with rfl | rfl
    · exact hread
    · exact hread

/-- No digit comes behind the digits before an exponent. -/
theorem apart_exponent {x : Bytes} (hx : ExponentText x) {rest : Bytes} (hrest : Ends rest) :
    Apart (x ++ rest) := by
  cases hx with
  | none => exact hrest.detached.noDigit
  | digits he _ _ _ =>
    rcases he with rfl | rfl
    · exact apart_cons rfl _
    · exact apart_cons rfl _

theorem apart_fraction {f x : Bytes} (hf : FractionText f) (hx : ExponentText x) {rest : Bytes}
    (hrest : Ends rest) : Apart (f ++ (x ++ rest)) := by
  cases hf with
  | none => exact apart_exponent hx hrest
  | digits _ _ => exact apart_cons rfl _

/-- The end of a numeral is read, and what comes behind it does not matter. -/
theorem exists_integerTail {f x : Bytes} (hf : FractionText f) (hx : ExponentText x)
    (negative : Bool) (m dropped : Nat) :
    ∃ n? : Option Numeral, ∀ rest, Ends rest →
      (integerTail negative m dropped (f ++ (x ++ rest))).toOption = n?.map (·, rest) := by
  cases hf with
  | none =>
    cases hx with
    | none =>
      -- digits that did not fit make a double of an integer
      by_cases hdropped : dropped = 0
      · refine ⟨some (ofInteger negative m), fun rest hrest => ?_⟩
        have hend := integerTail_of_detached hrest.detached negative m dropped
        rw [if_pos hdropped] at hend
        exact congrArg Except.toOption hend
      · obtain ⟨n?, hn⟩ := exists_real negative m dropped
        refine ⟨n?, fun rest hrest => ?_⟩
        have hend := integerTail_of_detached hrest.detached negative m dropped
        rw [if_neg hdropped] at hend
        exact (congrArg Except.toOption hend).trans (hn rest)
    | digits he hsign hne hds =>
      obtain ⟨n?, hn⟩ := exists_realTail (.digits he hsign hne hds) negative m dropped
      refine ⟨n?, fun rest hrest => ?_⟩
      rw [← hn rest hrest]
      rcases he with rfl | rfl
      · rfl
      · rfl
  | digits hne hds =>
    obtain ⟨m', e', hfraction⟩ := exists_fraction hne hds negative m dropped
    obtain ⟨n?, hn⟩ := exists_realTail hx negative m' e'
    refine ⟨n?, fun rest hrest => ?_⟩
    rw [← hn rest hrest, ← hfraction _ (apart_exponent hx hrest)]
    rfl

/-- A numeral without its sign is read to its end, unless it is out of range. -/
theorem exists_unsignedText {t : Bytes} (h : UnsignedText t) (negative : Bool) :
    ∃ n? : Option Numeral, ∀ rest, Ends rest →
      (unsigned negative (t ++ rest)).toOption = n?.map (·, rest) := by
  obtain ⟨hwhole, hfraction, hexponent⟩ := h
  obtain ⟨m, dropped, hread⟩ := exists_unsigned negative hwhole
  obtain ⟨n?, hn⟩ := exists_integerTail hfraction hexponent negative m dropped
  refine ⟨n?, fun rest hrest => ?_⟩
  rw [List.append_assoc, List.append_assoc, hread _ (apart_fraction hfraction hexponent hrest)]
  exact hn rest hrest

/-- A numeral is read to its end, unless it is out of range, and what comes behind it does not
matter. -/
theorem exists_number {t : Bytes} (h : NumeralText t) :
    ∃ n? : Option Numeral, ∀ rest, Ends rest →
      (number (t ++ rest)).toOption = n?.map (·, rest) := by
  cases h with
  | positive ht =>
    obtain ⟨n?, hn⟩ := exists_unsignedText ht false
    obtain ⟨b, bytes, rfl, hdigit⟩ := ht.exists_digit
    refine ⟨n?, fun rest hrest => ?_⟩
    rw [List.cons_append, number_of_digit hdigit]
    exact hn rest hrest
  | negative ht => exact exists_unsignedText ht true

/-! ## Passing over tokens -/

/-- A text is passed over behind an escape. -/
theorem passText_backslash {bytes rest : Bytes} (h : passEscape bytes = .ok ((), rest)) :
    passText (Byte.backslash :: bytes) = passText rest := by
  have hquote : ¬ Byte.backslash = Byte.quote := by decide
  rw [passText, if_neg hquote, if_pos rfl]
  -- passing over looks at the escape alone, not at what it stands for
  split
  · rename_i hescape
    rw [h] at hescape
    cases hescape
  · rename_i hescape
    rw [h] at hescape
    cases hescape
    rfl

theorem passEscape_short {b c : UInt8} (h : shortEscape? b = some c) (bytes : Bytes) :
    passEscape (b :: bytes) = .ok ((), bytes) := by
  unfold passEscape
  split
  · contradiction
  · rename_i hcons
    obtain ⟨rfl, -⟩ := List.cons.inj hcons
    cases h
  · rename_i hcons
    obtain ⟨rfl, rfl⟩ := List.cons.inj hcons
    rw [h]
    rfl

theorem passEscape_unit {digits : Bytes} {n : Nat} (h : HexUnit digits n) (rest : Bytes) :
    passEscape (Byte.lowerU :: (digits ++ rest)) = .ok ((), rest) :=
  bind_apply_of_ok (f := fun _ => pure ()) (hexUnit_of h rest)

/-- Whatever stands between quotes is passed over, up to the closing quote and with it. -/
theorem passText_content {content : Bytes} (h : TextContent content) (rest : Bytes) :
    passText (content ++ Byte.quote :: rest) = .ok ((), rest) := by
  induction h with
  | nil =>
    rw [List.nil_append, passText]
    rfl
  | plain hb _ ih =>
    rw [List.cons_append, passText, if_neg hb.2.1, if_neg hb.2.2, if_neg hb.1]
    exact ih
  | short hb _ ih => exact (passText_backslash (passEscape_short hb _)).trans ih
  | unit hn _ ih =>
    rw [List.cons_append, List.cons_append, List.append_assoc]
    exact (passText_backslash (passEscape_unit hn _)).trans ih

/-- A run of digits, at least one, is passed over. -/
def passRun (next : Reader Unit) : Reader Unit := fun bytes =>
  match countDigits bytes with
  | (0, _) => .error .malformed
  | (_, rest) => next rest

theorem passRun_digits {ds : Bytes} (hne : ds ≠ []) (hds : DigitBytes ds) {rest : Bytes}
    (hrest : Apart rest) (next : Reader Unit) : passRun next (ds ++ rest) = next rest := by
  obtain ⟨b, ds, rfl⟩ := List.exists_cons_of_ne_nil hne
  unfold passRun
  rw [countDigits_digits hds hrest]
  rfl

/-- What comes behind a sign, if there is one. -/
def behindSign : Bytes → Bytes
  | Byte.plus :: rest | Byte.minus :: rest => rest
  | rest => rest

theorem behindSign_digit {b : UInt8} (hb : (Byte.digit? b).isSome = true) (bytes : Bytes) :
    behindSign (b :: bytes) = b :: bytes := by
  unfold behindSign
  split
  · rename_i hcons
    rw [(List.cons.inj hcons).1] at hb
    cases hb
  · rename_i hcons
    rw [(List.cons.inj hcons).1] at hb
    cases hb
  · rfl

theorem passExponent_behindSign {e : UInt8} (he : e = Byte.lowerE ∨ e = Byte.upperE)
    (bytes : Bytes) : passExponent (e :: bytes) = passRun (pure ()) (behindSign bytes) := by
  rcases he with rfl | rfl
  · rfl
  · rfl

/-- Behind its letter and sign, an exponent is a run of digits. -/
theorem passExponent_letter {e : UInt8} (he : e = Byte.lowerE ∨ e = Byte.upperE) {sign : Bytes}
    (hsign : SignText sign) {b : UInt8} (hb : (Byte.digit? b).isSome = true) (bytes : Bytes) :
    passExponent (e :: (sign ++ b :: bytes)) = passRun (pure ()) (b :: bytes) := by
  rw [passExponent_behindSign he]
  cases hsign with
  | none => exact congrArg (passRun (pure ())) (behindSign_digit hb bytes)
  | plus => rfl
  | minus => rfl

theorem passExponent_text {x : Bytes} (h : ExponentText x) {rest : Bytes} (hrest : Ends rest) :
    passExponent (x ++ rest) = .ok ((), rest) := by
  cases h with
  | none =>
    rcases rest with _ | ⟨b, rest⟩
    · rfl
    · obtain ⟨-, -, hlower, hupper⟩ := hrest.detached b rfl
      rw [List.nil_append]
      -- none of the bytes that can stand here is the letter of an exponent
      unfold passExponent
      split <;> simp_all
  | digits he hsign hne hds =>
    obtain ⟨b, ds, rfl⟩ := List.exists_cons_of_ne_nil hne
    rw [List.cons_append, List.append_assoc, List.cons_append,
      passExponent_letter he hsign (hds b List.mem_cons_self)]
    exact passRun_digits hne hds hrest.detached.noDigit _

/-- What may come behind the digits before the point of a numeral is passed over. -/
def passTail : Reader Unit
  | Byte.point :: rest => passRun passExponent rest
  | rest => passExponent rest

/-- The digits of a numeral and what comes behind them are passed over. -/
def passDigits : Reader Unit
  | [] => .error .malformed
  | b :: bytes =>
    match Byte.digit? b with
    | none => .error .malformed
    | some d =>
      if d = 0 ∧ 0 < (countDigits bytes).1 then .error .malformed
      else passTail (countDigits bytes).2

theorem passNumber_minus (bytes : Bytes) :
    passNumber (Byte.minus :: bytes) = passDigits bytes := by
  cases bytes with
  | nil => rfl
  | cons => rfl

theorem passNumber_digit {b : UInt8} (hb : (Byte.digit? b).isSome = true) (bytes : Bytes) :
    passNumber (b :: bytes) = passDigits (b :: bytes) := by
  unfold passNumber
  split
  · rename_i hcons
    rw [(List.cons.inj hcons).1] at hb
    cases hb
  · rfl

/-- The digits before the point are passed over, up to what comes behind them. -/
theorem passDigits_whole {whole : Bytes} (h : WholeText whole) {rest : Bytes}
    (hrest : Apart rest) : passDigits (whole ++ rest) = passTail rest := by
  cases h with
  | zero =>
    have hcount := countDigits_of_apart hrest
    have hdigit : Byte.digit? 0x30 = some 0 := rfl
    rw [List.cons_append, List.nil_append, passDigits, hdigit]
    dsimp only
    rw [hcount, if_neg fun hsome => absurd hsome.2 (Nat.lt_irrefl 0)]
  | digits hb hd hds =>
    rw [List.cons_append, passDigits, hb]
    dsimp only
    rw [countDigits_digits hds hrest, if_neg fun hzero => hd hzero.1]

/-- Without a fraction there is no point. -/
theorem passTail_exponent {x : Bytes} (h : ExponentText x) {rest : Bytes} (hrest : Ends rest) :
    passTail (x ++ rest) = passExponent (x ++ rest) := by
  -- neither the letter of an exponent nor what may follow a numeral is a point
  have hpoint : ∀ b ∈ (x ++ rest).head?, b ≠ Byte.point := by
    cases h with
    | none => exact fun b hb => (hrest.detached b hb).2.1
    | digits he _ _ _ =>
      rintro _ ⟨⟩
      rcases he with rfl | rfl <;> decide
  unfold passTail
  split
  · rename_i hcons
    rw [hcons] at hpoint
    exact absurd rfl (hpoint _ rfl)
  · rfl

theorem passTail_text {f x : Bytes} (hf : FractionText f) (hx : ExponentText x) {rest : Bytes}
    (hrest : Ends rest) : passTail (f ++ (x ++ rest)) = .ok ((), rest) := by
  cases hf with
  | none => exact (passTail_exponent hx hrest).trans (passExponent_text hx hrest)
  | digits hne hds =>
    exact (passRun_digits hne hds (apart_exponent hx hrest) _).trans (passExponent_text hx hrest)

theorem passDigits_text {t : Bytes} (h : UnsignedText t) {rest : Bytes} (hrest : Ends rest) :
    passDigits (t ++ rest) = .ok ((), rest) := by
  obtain ⟨hwhole, hfraction, hexponent⟩ := h
  rw [List.append_assoc, List.append_assoc,
    passDigits_whole hwhole (apart_fraction hfraction hexponent hrest)]
  exact passTail_text hfraction hexponent hrest

/-- A numeral is passed over to its end. -/
theorem passNumber_text {t : Bytes} (h : NumeralText t) {rest : Bytes} (hrest : Ends rest) :
    passNumber (t ++ rest) = .ok ((), rest) := by
  cases h with
  | positive ht =>
    have hpass := passDigits_text ht hrest
    obtain ⟨b, bytes, rfl, hdigit⟩ := ht.exists_digit
    exact (passNumber_digit hdigit _).trans hpass
  | negative ht => exact (passNumber_minus _).trans (passDigits_text ht hrest)

end Reader

end StreamControl.Json
