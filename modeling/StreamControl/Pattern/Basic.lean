import StreamControl.Pattern.Set
import StreamControl.Text.Alphanumeric

/-!
# Search patterns

A search pattern consists of symbols, sets and groups, which `*`, `+` and `?` repeat and between
which `|` separates alternatives.  A group stands between parentheses and may have a name, or
options that hold in it.

`isPattern` says which texts are patterns that can be used.  `Progress` is how far a pattern was
read, and `Progress.step` reads one more part of it.  Repetitions with a count and conditions on
what is around a place are not part of the notation.
-/

namespace StreamControl.Pattern

/-! ## Open groups -/

/-- A group of which the end was not read, or the whole pattern. -/
structure OpenGroup where
  /-- The mode at the place that was reached. -/
  mode : Mode
  /-- The height of the highest alternative in front of the last bar. -/
  left : Option Nat
  /-- The parts of the last alternative, without its last part. -/
  parts : Row
  /-- The height of its last part, and whether that may be repeated. -/
  last : Option (Nat × Bool)
deriving DecidableEq, Repr

namespace OpenGroup

/-- A group of which nothing was read. -/
def start (mode : Mode) : OpenGroup := ⟨mode, none, .empty, none⟩

/-- The parts of the last alternative. -/
def row (g : OpenGroup) : Row :=
  match g.last with
  | none => g.parts
  | some (height, _) => g.parts.add height

/-- The height of what is between the parentheses. -/
def height (g : OpenGroup) : Nat :=
  match g.left with
  | none => g.row.height
  | some left => max left g.row.height + 1

/-- The group with a part of a given height. -/
def add (g : OpenGroup) (height : Nat) : OpenGroup :=
  { g with parts := g.row, last := some (height, true) }

/-- The group with options that hold from here on; they cannot be repeated. -/
def switch (g : OpenGroup) (options : List Char) : OpenGroup :=
  { g with mode := g.mode.apply options, parts := g.row, last := some (0, false) }

/-- The group with its last part repeated. -/
def repeatLast? (g : OpenGroup) : Option OpenGroup :=
  match g.last with
  | some (height, true) => some { g with last := some (height + 1, true) }
  | _ => none

/-- The group behind a bar. -/
def branch (g : OpenGroup) : OpenGroup :=
  ⟨g.mode, some (max (g.left.getD 0) g.row.height), .empty, none⟩

end OpenGroup

/-! ## Progress -/

/-- How far a pattern was read. -/
structure Progress where
  /-- The names of groups so far. -/
  names : List (List Char)
  /-- The innermost open group. -/
  group : OpenGroup
  /-- The groups around it, the innermost first. -/
  outer : List OpenGroup
  /-- The open sets, the innermost first. -/
  sets : List OpenSet
deriving DecidableEq, Repr

namespace Progress

/-- Nothing was read. -/
def start : Progress := ⟨[], .start .initial, [], []⟩

/-- Another part of a given height is read. -/
def add (p : Progress) (height : Nat) : Progress := { p with group := p.group.add height }

/-- Opens a group. -/
def enter (p : Progress) (mode : Mode) : Progress :=
  { p with group := .start mode, outer := p.group :: p.outer }

/-- Closes a group. -/
def leave? (p : Progress) : Option Progress :=
  match p.outer with
  | [] => none
  | g :: outer => some { p with group := g.add (p.group.height + 1), outer }

/-- Whether a text is a name of a group: a letter or an underscore, and then also numbers, dots and
brackets. -/
def isName : List Char → Bool
  | [] => false
  | c :: rest =>
    (c = '_' || Text.isAlphabetic c) &&
      rest.all fun c => ['_', '.', '[', ']'].contains c || Text.isAlphanumeric c

/-- Reads the name of a group, which must be new, and opens the group. -/
def enterNamed? (p : Progress) (text : List Char) : Option (Progress × List Char) :=
  let name := text.takeWhile (· ≠ '>')
  match text.dropWhile (· ≠ '>') with
  | _ :: rest =>
    -- every name may be given once in the whole pattern
    if isName name && !p.names.contains name then
      some ({ p.enter p.group.mode with names := name :: p.names }, rest)
    else none
  | [] => none

/-- Reads options and opens the group in which they hold; without one they hold from here on. -/
def enterWith? (p : Progress) (text : List Char) : Option (Progress × List Char) :=
  let options := text.takeWhile fun c => c ≠ ':' && c ≠ ')'
  if Mode.areOptions options then
    match text.dropWhile fun c => c ≠ ':' && c ≠ ')' with
    | ':' :: rest => some (p.enter (p.group.mode.apply options), rest)
    | ')' :: rest =>
      -- options without a group must name some
      if options.isEmpty then none else some ({ p with group := p.group.switch options }, rest)
    | _ => none
  else none

/-- Reads the start of a group behind its parenthesis. -/
def enter? (p : Progress) (text : List Char) : Option (Progress × List Char) :=
  match p.group.mode.skip text with
  | '?' :: 'P' :: '<' :: rest => p.enterNamed? rest
  | '?' :: '<' :: rest => p.enterNamed? rest
  | '?' :: rest => p.enterWith? rest
  | rest => some (p.enter p.group.mode, rest)

/-- Reads a repetition behind its sign; a question mark there makes it as short as can be. -/
def repeat? (p : Progress) (rest : List Char) : Option (Progress × List Char) := do
  let group ← p.group.repeatLast?
  return ({ p with group }, if rest.head? = some '?' then rest.drop 1 else rest)

/-- Reads the next part of a pattern outside of sets, which starts with a given character. -/
def partStep (p : Progress) (c : Char) (rest : List Char) : Option (Progress × List Char) :=
  match c with
  | '(' => p.enter? rest
  | ')' => p.leave?.map fun p => (p, rest)
  | '|' => some ({ p with group := p.group.branch }, rest)
  | '[' => (OpenSet.open? p.group.mode rest).map fun (s, rest) => ({ p with sets := [s] }, rest)
  | '*' | '+' | '?' => p.repeat? rest
  -- counted repetitions are not supported
  | '\x7b' => none
  | c => do
    let (symbol, rest) ← Symbol.read? p.group.mode c rest
    if symbol.isUsable p.group.mode then some (p.add 0, rest) else none

/-- Reads the next part of a pattern, which starts with a given character. -/
def step (p : Progress) (c : Char) (rest : List Char) : Option (Progress × List Char) :=
  match p.sets with
  | [] => p.partStep c rest
  | s :: outer => do
    match ← OpenSet.step p.group.mode s outer c rest with
    | (.inside s outer, rest) => return ({ p with sets := s :: outer }, rest)
    | (.closed height, rest) => return ({ p with sets := [] }.add height, rest)

/-- Reads the rest of a pattern in at most a number of steps. -/
def run : (steps : Nat) → Progress → List Char → Option Progress
  | 0, _, _ => none
  | steps + 1, p, text =>
    match p.group.mode.skip text with
    | [] => some p
    | c :: rest => do
      let (p, rest) ← p.step c rest
      run steps p rest

/-- How high a pattern may be. -/
def heightLimit : Nat := 250

/-- Whether a pattern may end: nothing is open, and it is not too high. -/
def isComplete (p : Progress) : Bool :=
  p.sets.isEmpty && p.outer.isEmpty && p.group.height ≤ heightLimit

end Progress

/-- Whether a text is a pattern that can be used.  Each step reads a character at least. -/
def isPattern (text : List Char) : Bool :=
  (Progress.run (text.length + 1) .start text).any Progress.isComplete

end StreamControl.Pattern
