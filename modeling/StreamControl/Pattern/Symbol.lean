import StreamControl.Pattern.Mode

/-!
# Symbols of search patterns

A symbol is the smallest part of a pattern: a character that stands for itself, or something written
with a sign or with a backslash.  Whether a symbol may be used depends on the mode.  There are no
tables of the letters, digits and cases of all scripts, so what needs one cannot be used; and bytes
that are matched singly must not make up a broken character.
-/

namespace StreamControl.Pattern

/-- A symbol. -/
inductive Symbol
  /-- A character; `coded` says that two digits of its code were written. -/
  | char (c : Char) (coded : Bool)
  /-- The digits, the blanks or the characters of words, or all others. -/
  | kind (others : Bool)
  /-- Any character but the end of a line. -/
  | any
  /-- The start or the end of a line or of the text. -/
  | boundary
  /-- The start or the end of a word, or where neither is. -/
  | wordBoundary
deriving DecidableEq, Repr

namespace Symbol

/-! ## Where symbols may be used -/

/-- Whether a symbol may stand in a pattern. -/
def isUsable (mode : Mode) : Symbol → Bool
  | .char c coded => if mode.whole then !mode.caseless else !(coded && 0x80 ≤ c.toNat)
  | .kind others => !mode.whole && !others
  | .any => mode.whole
  | .boundary => true
  | .wordBoundary => !mode.whole

/-- Whether a symbol may be a member of a set. -/
def isMember (mode : Mode) : Symbol → Bool
  | .char c _ => if mode.whole then !mode.caseless else c.toNat < 0x80
  | .kind others => !mode.whole && !others
  | _ => false

/-- Whether two symbols may be the ends of a range in a set. -/
def isRange (mode : Mode) : (first last : Symbol) → Bool
  | .char a coded, .char b coded' =>
    a ≤ b && (char a coded).isMember mode && (char b coded').isMember mode
  | _, _ => false

/-! ## Reading -/

/-- The value of a hexadecimal digit. -/
def hexDigit? (c : Char) : Option Nat :=
  if c.isDigit then some (c.toNat - '0'.toNat)
  else if 'a' ≤ c.toLower && c.toLower ≤ 'f' then some (c.toLower.toNat - 'a'.toNat + 10)
  else none

/-- Reads a number of digits of a character's code. -/
def code? (mode : Mode) : (digits value : Nat) → List Char → Option (Nat × List Char)
  | 0, value, text => some (value, text)
  | digits + 1, value, text =>
    match mode.skip text with
    | [] => none
    | c :: rest => do code? mode digits (16 * value + (← hexDigit? c)) rest

/-- Reads a character by its code. -/
def coded? (mode : Mode) (digits : Nat) (text : List Char) : Option (Symbol × List Char) := do
  let (value, rest) ← code? mode digits 0 text
  if value.isValidChar then some (.char (Char.ofNat value) (digits == 2), rest) else none

/-- The character that a letter behind a backslash stands for, or the character itself if it is a
sign. -/
def escaped? (c : Char) : Option Char :=
  match c with
  | 'a' => some '\x07'
  | 'f' => some '\x0c'
  | 't' => some '\t'
  | 'n' => some '\n'
  | 'r' => some '\r'
  | 'v' => some '\x0b'
  | c => if c.toNat < 0x80 && !c.isAlphanum then some c else none

/-- Reads what follows a backslash. -/
def escape? (mode : Mode) : List Char → Option (Symbol × List Char)
  | [] => none
  | c :: rest =>
    match c with
    | 'd' | 's' | 'w' => some (.kind false, rest)
    | 'D' | 'S' | 'W' => some (.kind true, rest)
    | 'x' => coded? mode 2 rest
    | 'u' => coded? mode 4 rest
    | 'U' => coded? mode 8 rest
    | 'A' | 'z' => some (.boundary, rest)
    | 'b' | 'B' | '<' | '>' => some (.wordBoundary, rest)
    | c => (escaped? c).map fun meaning => (.char meaning false, rest)

/-- Reads a symbol outside of sets. -/
def read? (mode : Mode) (c : Char) (rest : List Char) : Option (Symbol × List Char) :=
  match c with
  | '\\' => escape? mode rest
  | '.' => some (.any, rest)
  | '^' | '$' => some (.boundary, rest)
  | c => some (.char c false, rest)

/-- Reads a symbol in a set, where only the backslash is a sign. -/
def readMember? (mode : Mode) : List Char → Option (Symbol × List Char)
  | [] => none
  | '\\' :: rest => escape? mode rest
  | c :: rest => some (.char c false, rest)

end Symbol

end StreamControl.Pattern
