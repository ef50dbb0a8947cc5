import StreamControl.Operation
import StreamControl.Pattern.Basic

/-!
# Log filters

A log filter says which log lines are written.  It consists of directives between commas.  A
directive names a target, a span or both, and may end in a level:

    target[span{field=value}]=level

A lone word counts as a target, so it needs no check of its own.  `check` reads a filter and says
what is wrong with it.

The parts of a directive are found in its text without the blanks around it, but they are cut out of
the text as it was written, at the same bytes.  So in front of a level there may be no blank, and
behind blanks a part may start or end inside a character, which no text can.
-/

namespace StreamControl.Command.Filter

/-- What is wrong with a filter. -/
inductive Fault
  /-- It has another form. -/
  | malformed
  /-- A part of it starts or ends inside a character. -/
  | broken
deriving DecidableEq, Repr

/-- Goes on if a condition holds. -/
def require (condition : Bool) : Except Fault Unit :=
  if condition then .ok () else .error .malformed

/-! ## Levels -/

/-- The names of levels, in any case of letters. -/
def levelNames : List String := ["off", "error", "warn", "info", "debug", "trace"]

/-- Whether some digits are the number of a level: 0 for the first name to 5 for the last, with any
number of zeros in front. -/
def isLevelNumber (digits : List Char) : Bool :=
  match digits.dropWhile (· == '0') with
  | [] => !digits.isEmpty
  | [d] => '1' ≤ d && d ≤ '5'
  | _ => false

/-- Whether a text is a level: a name, or a number that may have a plus sign. -/
def isLevel (text : List Char) : Bool :=
  match text with
  | '+' :: digits => isLevelNumber digits
  -- names come in any case of letters
  | text =>
    isLevelNumber text || levelNames.any fun name => Operation.same name (String.ofList text)

/-! ## Fields -/

/-- Whether a text is empty or an exponent. -/
def isExponent (text : List Char) : Bool :=
  match text with
  | [] => true
  | e :: power =>
    let digits := match power with
      | '+' :: digits | '-' :: digits => digits
      | digits => digits
    e.toLower == 'e' && !digits.isEmpty && digits.all Char.isDigit

/-- Whether a text is a decimal number without a sign, or the name of what is no finite one. -/
def isNumber (text : List Char) : Bool :=
  let rest := text.dropWhile Char.isDigit
  let tail := match rest with
    | '.' :: fraction => fraction.dropWhile Char.isDigit
    | rest => rest
  let hasDigit := (text.take (text.length - tail.length)).any Char.isDigit
  (hasDigit && isExponent tail) ||
    ["inf", "infinity", "nan"].any fun name => Operation.same name (String.ofList text)

/-- Whether a text is the value of a field: a search pattern, as which a number passes too unless it
has a plus sign. -/
def isFieldValue (text : List Char) : Bool :=
  match text with
  | '+' :: number => isNumber number
  | text => Pattern.isPattern text

/-- Whether a text is a field: a name and perhaps a value, which ends where another equals sign
stands. -/
def isField (text : List Char) : Bool :=
  match text.dropWhile (· ≠ '=') with
  | [] => !text.isEmpty
  | _ :: value => isFieldValue (value.takeWhile (· ≠ '='))

/-! ## Parts of a directive -/

/-- The number of bytes of a text. -/
def byteSize : List Char → Nat
  | [] => 0
  | c :: text => c.utf8Size + byteSize text

/-- A text behind its first bytes, unless they end inside a character. -/
def dropBytes? : List Char → Nat → Option (List Char)
  | text, 0 => some text
  | [], _ => none
  | c :: text, n => if c.utf8Size ≤ n then dropBytes? text (n - c.utf8Size) else none

/-- The end of a directive as written, from the byte at which a given end of its trimmed text starts
there. -/
def endFrom (directive rest : List Char) : Except Fault (List Char) :=
  match dropBytes? directive (byteSize (Text.trim directive) - byteSize rest) with
  | some text => .ok text
  | none => .error .broken

/-- The part of a directive as written, between the bytes at which two given ends of its trimmed
text start there. -/
def part (directive first last : List Char) : Except Fault (List Char) := do
  let text ← endFrom directive first
  let behind ← endFrom directive last
  return text.take (text.length - behind.length)

/-! ## Directives -/

/-- Whether a target may start with a character. -/
def startsTarget (c : Char) : Bool := ['-', ':', '_'].contains c || Text.isAlphanumeric c

/-- Checks the level of a directive, given what follows its sign in the trimmed text; it may be left
out. -/
def checkLevel (directive rest : List Char) : Except Fault Unit := do
  let level ← endFrom directive rest
  require (level.isEmpty || isLevel level)

/-- Checks what follows the span of a directive. -/
def checkEnd (directive : List Char) : (rest : List Char) → Except Fault Unit
  | [] => .ok ()
  | '=' :: rest => checkLevel directive rest
  | _ => .error .malformed

/-- Checks the field of a span and what follows it, given what follows the brace that opens it. -/
def checkField (directive rest : List Char) : Except Fault Unit :=
  match rest.dropWhile (· ≠ '\x7d') with
  | [] => .error .malformed
  | close :: behind => do
    require (isField (← part directive rest (close :: behind)))
    match behind with
    | ']' :: rest => checkEnd directive rest
    | _ => .error .malformed

/-- Checks the span of a directive and what follows it, given what follows the bracket that opens
it. -/
def checkSpan (directive rest : List Char) : Except Fault Unit :=
  match rest.dropWhile fun c => c ≠ ']' ∧ c ≠ '\x7b' with
  | [] => .error .malformed
  | c :: behind => do
    -- so is the name of the span
    let _name ← part directive rest (c :: behind)
    if c = ']' then checkEnd directive behind else checkField directive behind

/-- Checks a directive. -/
def checkDirective (directive : List Char) : Except Fault Unit :=
  match Text.trim directive with
  | [] => .error .malformed
  | '[' :: rest => checkSpan directive rest
  | c :: text => do
    require (startsTarget c)
    match text.dropWhile fun c => c ≠ '=' ∧ c ≠ '[' with
    | [] => return ()
    | sign :: rest =>
      -- the target itself may be anything, but it must be possible to cut it out
      let _target ← part directive (c :: text) (sign :: rest)
      if sign = '=' then checkLevel directive rest else checkSpan directive rest

/-- Checks the directives between the commas of a filter, up to the first that is at fault; an empty
one says nothing. -/
def check (filter : String) : Except Fault Unit :=
  (filter.splitOn ",").forM fun directive =>
    if directive.isEmpty then .ok () else checkDirective directive.toList

end StreamControl.Command.Filter
