import StreamControl.Json.Number
import StreamControl.Json.Text

/-!
# Spellings of values

The same value can be spelled in many ways: blanks may stand between any two tokens, the characters of
a text may be escaped or not, the members of an object may stand in any order.  `ValueText` says which
bytes spell a value at all, whatever it is and however deep it is nested.  It is the grammar of
documents and knows nothing of readers.

* `TextContent` is what may stand between quotes, and `Spells` says which text that is, if it is one:
  half of a surrogate pair may stand there as well, but spells nothing.
* `NumeralText` is a numeral of any size.
* `Member` is a member of an object whose key and value are spelled properly.
-/

namespace StreamControl.Json

/-! ## Tokens -/

/-- Any number of blanks. -/
abbrev Blanks := { ws : Bytes // ∀ b ∈ ws, Byte.isBlank b = true }

/-- No blank. -/
def Blanks.none : Blanks := ⟨[], fun _ h => absurd h List.not_mem_nil⟩

/-- The sixteen-bit unit that four hexadecimal digits stand for. -/
inductive HexUnit : Bytes → Nat → Prop
  | mk {a b c d : UInt8} {i j k l : Nat} :
      Byte.hexDigit? a = some i → Byte.hexDigit? b = some j → Byte.hexDigit? c = some k →
      Byte.hexDigit? d = some l → HexUnit [a, b, c, d] (((i * 16 + j) * 16 + k) * 16 + l)

/-- A byte of a text that stands for itself. -/
def Plain (b : UInt8) : Prop := ¬ b < Byte.space ∧ b ≠ Byte.quote ∧ b ≠ Byte.backslash

instance : DecidablePred Plain := fun _ => inferInstanceAs (Decidable (_ ∧ _ ∧ _))

/-- Bytes of a text that stand for themselves. -/
def PlainBytes (content : Bytes) : Prop := ∀ b ∈ content, Plain b

instance : DecidablePred PlainBytes := fun content => content.decidableBAll Plain

/-- What may stand between the quotes of a text. -/
inductive TextContent : Bytes → Prop
  | nil : TextContent []
  | plain {b : UInt8} {content : Bytes} :
      Plain b → TextContent content → TextContent (b :: content)
  | short {b c : UInt8} {content : Bytes} : Reader.shortEscape? b = some c →
      TextContent content → TextContent (Byte.backslash :: b :: content)
  | unit {digits content : Bytes} {n : Nat} : HexUnit digits n →
      TextContent content → TextContent (Byte.backslash :: Byte.lowerU :: (digits ++ content))

/-- What stands between the quotes spells a text with these bytes. -/
inductive Spells : (content text : Bytes) → Prop
  | nil : Spells [] []
  | plain {b : UInt8} {content text : Bytes} :
      Plain b → Spells content text → Spells (b :: content) (b :: text)
  | short {b c : UInt8} {content text : Bytes} : Reader.shortEscape? b = some c →
      Spells content text → Spells (Byte.backslash :: b :: content) (c :: text)
  /-- One unit that is a character. -/
  | unit {digits content text : Bytes} {n : Nat} : HexUnit digits n →
      Reader.isLeading n = false → Reader.isTrailing n = false → Spells content text →
      Spells (Byte.backslash :: Byte.lowerU :: (digits ++ content))
        (utf8 (Char.ofNat n).toString ++ text)
  /-- Two units that are the halves of a character. -/
  | pair {digits digits' content text : Bytes} {n n' : Nat} : HexUnit digits n →
      HexUnit digits' n' → Reader.isLeading n = true → Reader.isTrailing n' = true →
      Spells content text →
      Spells (Byte.backslash :: Byte.lowerU ::
          (digits ++ Byte.backslash :: Byte.lowerU :: (digits' ++ content)))
        (utf8 (Char.ofNat (Reader.pairedCode n n')).toString ++ text)

/-- Bytes that stand for themselves spell themselves. -/
theorem Spells.of_plain {content : Bytes} (h : PlainBytes content) : Spells content content := by
  induction content with
  | nil => exact .nil
  | cons b content ih =>
    obtain ⟨hb, hcontent⟩ := List.forall_mem_cons.1 h
    exact .plain hb (ih hcontent)

/-- What spells a text may stand between quotes. -/
theorem Spells.isText {content text : Bytes} (h : Spells content text) : TextContent content := by
  induction h with
  | nil => exact .nil
  | plain hb _ ih => exact .plain hb ih
  | short hb _ ih => exact .short hb ih
  | unit hn _ _ _ ih => exact .unit hn ih
  | pair hn hn' _ _ _ ih => exact .unit hn (.unit hn' ih)

/-- A text with its quotes. -/
def textToken (content : Bytes) : Bytes := Byte.quote :: (content ++ [Byte.quote])

/-- Two texts with the same characters, whichever of them are escaped. -/
inductive SameText : Bytes → Bytes → Prop
  | mk {content content' text : Bytes} : Spells content text → Spells content' text →
      SameText (textToken content) (textToken content')

/-- Decimal digits. -/
def DigitBytes (ds : Bytes) : Prop := ∀ b ∈ ds, (Byte.digit? b).isSome = true

instance : DecidablePred DigitBytes := fun ds => ds.decidableBAll _

/-- The digits before the point: a zero alone, or any that do not begin with a zero. -/
inductive WholeText : Bytes → Prop
  | zero : WholeText [0x30]
  | digits {b : UInt8} {d : Nat} {ds : Bytes} :
      Byte.digit? b = some d → d ≠ 0 → DigitBytes ds → WholeText (b :: ds)

/-- The point and the digits behind it, at least one, or nothing. -/
inductive FractionText : Bytes → Prop
  | none : FractionText []
  | digits {ds : Bytes} : ds ≠ [] → DigitBytes ds → FractionText (Byte.point :: ds)

/-- The sign of an exponent, or nothing. -/
inductive SignText : Bytes → Prop
  | none : SignText []
  | plus : SignText [Byte.plus]
  | minus : SignText [Byte.minus]

/-- An exponent with its letter, or nothing. -/
inductive ExponentText : Bytes → Prop
  | none : ExponentText []
  | digits {e : UInt8} {sign ds : Bytes} : e = Byte.lowerE ∨ e = Byte.upperE → SignText sign →
      ds ≠ [] → DigitBytes ds → ExponentText (e :: (sign ++ ds))

/-- A numeral without its sign. -/
inductive UnsignedText : Bytes → Prop
  | mk {whole fraction exponent : Bytes} : WholeText whole → FractionText fraction →
      ExponentText exponent → UnsignedText (whole ++ (fraction ++ exponent))

/-- A numeral. -/
inductive NumeralText : Bytes → Prop
  | positive {t : Bytes} : UnsignedText t → NumeralText t
  | negative {t : Bytes} : UnsignedText t → NumeralText (Byte.minus :: t)

/-! ## Values -/

/-- A piece of a document with the blanks around it. -/
structure Padded where
  before : Blanks
  core : Bytes
  behind : Blanks

/-- A piece with no blanks around it. -/
def Padded.bare (core : Bytes) : Padded := ⟨.none, core, .none⟩

/-- The bytes of a padded piece. -/
def Padded.bytes (p : Padded) : Bytes := p.before.val ++ (p.core ++ p.behind.val)

/-- Pieces between two bytes, with commas between them. -/
def enclosed (opening closing : UInt8) (lead : Blanks) (items : List Padded) : Bytes :=
  opening :: (lead.val ++ ([Byte.comma].intercalate (items.map Padded.bytes) ++ [closing]))

/-- An array of elements. -/
def arrayText (lead : Blanks) (elements : List Padded) : Bytes :=
  enclosed Byte.openBracket Byte.closeBracket lead elements

/-- A member of an object. -/
structure MemberText where
  before : Blanks
  /-- What stands between the quotes of the key. -/
  key : Bytes
  gap : Blanks
  value : Padded

/-- A member as one piece, without what is before its key and behind its value. -/
def MemberText.padded (m : MemberText) : Padded where
  before := m.before
  core := textToken m.key ++
    (m.gap.val ++ Byte.colon :: (m.value.before.val ++ m.value.core))
  behind := m.value.behind

/-- An object with members. -/
def objectText (lead : Blanks) (members : List MemberText) : Bytes :=
  enclosed Byte.openBrace Byte.closeBrace lead (members.map MemberText.padded)

/-- The bytes spell a value. -/
inductive ValueText : Bytes → Prop
  | null : ValueText (utf8 "null")
  | true : ValueText (utf8 "true")
  | false : ValueText (utf8 "false")
  | numeral {t : Bytes} : NumeralText t → ValueText t
  | text {content : Bytes} : TextContent content → ValueText (textToken content)
  | array {lead : Blanks} {elements : List Padded} :
      (∀ e ∈ elements, ValueText e.core) → ValueText (arrayText lead elements)
  | object {lead : Blanks} {members : List MemberText} : (∀ m ∈ members, TextContent m.key) →
      (∀ m ∈ members, ValueText m.value.core) → ValueText (objectText lead members)

/-- A member whose key and value are spelled properly. -/
structure Member extends MemberText where
  isText : TextContent key
  isValue : ValueText value.core

/-- A member without blanks; its key stands for itself. -/
def Member.bare (key : String) (hkey : PlainBytes (utf8 key)) {v : Bytes} (hvalue : ValueText v) :
    Member where
  before := .none
  key := utf8 key
  gap := .none
  value := .bare v
  isText := (Spells.of_plain hkey).isText
  isValue := hvalue

/-! ## First bytes -/

theorem UnsignedText.exists_digit {t : Bytes} (h : UnsignedText t) :
    ∃ b bytes, t = b :: bytes ∧ (Byte.digit? b).isSome = true := by
  obtain ⟨hwhole, -, -⟩ := h
  cases hwhole with
  | zero => exact ⟨_, _, rfl, rfl⟩
  | digits hb _ _ => exact ⟨_, _, rfl, by rw [hb]; rfl⟩

end StreamControl.Json
