import StreamControl.Bytes
import StreamControl.Json.Fault

/-!
# Readers

A reader takes the bytes that are left of a document and gives what it read together with the bytes
after it, or the first fault.  This module holds the readers that know nothing of the values they
pass: blanks, fixed words, and members between an opening and a closing byte.
-/

namespace StreamControl.Json

/-- Reads an `α` from the front of the bytes that are left. -/
abbrev Reader (α : Type) := StateT Bytes (Except Fault) α

/-! ## Bytes with a meaning -/

namespace Byte

@[match_pattern] abbrev backspace : UInt8 := 0x08
@[match_pattern] abbrev tab : UInt8 := 0x09
@[match_pattern] abbrev lineFeed : UInt8 := 0x0A
@[match_pattern] abbrev formFeed : UInt8 := 0x0C
@[match_pattern] abbrev carriageReturn : UInt8 := 0x0D
@[match_pattern] abbrev space : UInt8 := 0x20
@[match_pattern] abbrev quote : UInt8 := 0x22
@[match_pattern] abbrev plus : UInt8 := 0x2B
@[match_pattern] abbrev comma : UInt8 := 0x2C
@[match_pattern] abbrev minus : UInt8 := 0x2D
@[match_pattern] abbrev point : UInt8 := 0x2E
@[match_pattern] abbrev slash : UInt8 := 0x2F
@[match_pattern] abbrev colon : UInt8 := 0x3A
@[match_pattern] abbrev upperE : UInt8 := 0x45
@[match_pattern] abbrev openBracket : UInt8 := 0x5B
@[match_pattern] abbrev backslash : UInt8 := 0x5C
@[match_pattern] abbrev closeBracket : UInt8 := 0x5D
@[match_pattern] abbrev lowerB : UInt8 := 0x62
@[match_pattern] abbrev lowerE : UInt8 := 0x65
@[match_pattern] abbrev lowerF : UInt8 := 0x66
@[match_pattern] abbrev lowerN : UInt8 := 0x6E
@[match_pattern] abbrev lowerR : UInt8 := 0x72
@[match_pattern] abbrev lowerT : UInt8 := 0x74
@[match_pattern] abbrev lowerU : UInt8 := 0x75
@[match_pattern] abbrev openBrace : UInt8 := 0x7B
@[match_pattern] abbrev closeBrace : UInt8 := 0x7D

/-- The four bytes that may stand between the tokens of a document. -/
def isBlank (b : UInt8) : Bool :=
  b = space || b = tab || b = lineFeed || b = carriageReturn

/-- The value of a decimal digit. -/
def digit? (b : UInt8) : Option Nat :=
  if 0x30 ≤ b && b ≤ 0x39 then some (b.toNat - 0x30) else none

/-- The value of a hexadecimal digit in either case. -/
def hexDigit? (b : UInt8) : Option Nat :=
  if 0x30 ≤ b && b ≤ 0x39 then some (b.toNat - 0x30)
  else if 0x41 ≤ b && b ≤ 0x46 then some (b.toNat - 0x37)
  else if 0x61 ≤ b && b ≤ 0x66 then some (b.toNat - 0x57)
  else none

end Byte

namespace Reader

/-! ## Composition -/

/-- A reader that takes nothing. -/
theorem pure_apply {α : Type} (a : α) (bytes : Bytes) :
    (pure a : Reader α) bytes = .ok (a, bytes) := rfl

theorem pure_eq_ok {α : Type} {a b : α} {bytes rest : Bytes} :
    (pure a : Reader α) bytes = .ok (b, rest) ↔ a = b ∧ bytes = rest := by
  simp [pure_apply]

/-- Two readers in a row succeed if the first does and the second does on what the first left. -/
theorem bind_eq_ok {α β : Type} {x : Reader α} {f : α → Reader β} {bytes rest : Bytes} {b : β} :
    (x >>= f) bytes = .ok (b, rest) ↔
      ∃ a left, x bytes = .ok (a, left) ∧ f a left = .ok (b, rest) := by
  -- a reader passes on the bytes that are left, or the fault that it met
  change Except.bind (x bytes) (fun r => f r.1 r.2) = .ok (b, rest) ↔ _
  cases h : x bytes with
  | error fault => simp [Except.bind]
  | ok r =>
    constructor
    · intro hf
      exact ⟨r.1, r.2, rfl, hf⟩
    · rintro ⟨a, left, hx, hf⟩
      cases hx
      exact hf

/-- The second of two readers takes over where the first succeeded. -/
theorem bind_apply_of_ok {α β : Type} {x : Reader α} {f : α → Reader β} {bytes left : Bytes} {a : α}
    (h : x bytes = .ok (a, left)) : (x >>= f) bytes = f a left := by
  change Except.bind (x bytes) (fun r => f r.1 r.2) = _
  rw [h]
  rfl

/-- A function is applied to what a reader gave. -/
theorem map_apply_of_ok {α β : Type} {x : Reader α} {bytes left : Bytes} {a : α}
    (h : x bytes = .ok (a, left)) (f : α → β) : (f <$> x) bytes = .ok (f a, left) := by
  rw [map_eq_pure_bind, bind_apply_of_ok h]
  rfl

/-- A refusal stays one. -/
theorem map_apply_of_error {α β : Type} {x : Reader α} {bytes : Bytes} {fault : Fault}
    (h : x bytes = .error fault) (f : α → β) : (f <$> x) bytes = .error fault := by
  rw [map_eq_pure_bind]
  change Except.bind (x bytes) _ = _
  rw [h]
  rfl

/-! ## Single steps -/

/-- Refuses a text that is not well formed. -/
def malformed {α : Type} : Reader α := fun _ => .error .malformed

/-- Refuses a text that ends too early. -/
def ended {α : Type} : Reader α := fun _ => .error .ended

/-- Refuses a document that describes something else. -/
def mismatch {α : Type} (m : Mismatch) : Reader α := fun _ => .error (.mismatch m)

/-- Drops the blanks in front and shows the next byte, which stays in place. -/
def ahead : Reader (Option UInt8) := fun bytes =>
  let rest := bytes.dropWhile Byte.isBlank
  .ok (rest.head?, rest)

/-- A byte that is no blank is shown in its place. -/
theorem ahead_cons {b : UInt8} (h : Byte.isBlank b = false) (bytes : Bytes) :
    ahead (b :: bytes) = .ok (some b, b :: bytes) := by
  rw [ahead, List.dropWhile_cons_of_neg (by rw [h]; exact Bool.false_ne_true)]
  rfl

/-- Drops the next byte. -/
def advance : Reader Unit := fun bytes => .ok ((), bytes.tail)

/-- Reads exactly the bytes of `word`. -/
def word : (word : Bytes) → Reader Unit
  | [], bytes => .ok ((), bytes)
  | _ :: _, [] => .error .ended
  | w :: ws, b :: bytes => if b = w then word ws bytes else .error .malformed

/-! ## Members between two bytes -/

/-- Reads the members up to the byte `close`, with a comma between any two of them; `step` reads one
member on top of what the members before it gave.  `first` says that no member has been read yet. -/
def membersFrom {β : Type} (close : UInt8) (step : β → Reader β) :
    (fuel : Nat) → (first : Bool) → β → Reader β
  | 0, _, _ => ended
  | fuel + 1, first, acc => do
    match ← ahead with
    | none => ended
    | some b =>
      if b = close then
        advance
        pure acc
      -- a comma stands between two members, none before the first
      else if first then
        membersFrom close step fuel false (← step acc)
      else if b = Byte.comma then
        advance
        membersFrom close step fuel false (← step acc)
      else
        malformed

/-- Reads the members that are left before the byte `close`.  Each takes up a byte at least, so the
number of bytes left bounds their number. -/
def members {β : Type} (close : UInt8) (step : β → Reader β) (start : β) : Reader β := fun bytes =>
  membersFrom close step (bytes.length + 1) true start bytes

/-- Reads a colon. -/
def colon : Reader Unit := do
  match ← ahead with
  | some Byte.colon => advance
  | some _ => malformed
  | none => ended

/-! ## Whole documents -/

/-- How many arrays and objects may lie within one another in what a document says. -/
def maxDepth : Nat := 127

/-- Reads a whole document: nothing but blanks may follow the value.  The reader is told how many
further levels of nesting it may enter. -/
def document {α : Type} (read : (depth : Nat) → Reader α) (bytes : Bytes) : Except Fault α := do
  let (value, rest) ← read maxDepth bytes
  -- one value is all that a document says
  if (rest.dropWhile Byte.isBlank).isEmpty then .ok value else .error .malformed

end Reader

end StreamControl.Json
