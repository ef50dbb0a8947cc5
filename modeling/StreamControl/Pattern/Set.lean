import StreamControl.Pattern.Symbol

/-!
# Sets in search patterns

A set stands between brackets.  Its members are characters, ranges of them, named classes and other
sets; `&&`, `--` and `~~` combine what is on their two sides.  `OpenSet.step` reads one of these,
and the sets that are open are kept in a list, the innermost first.

Of what was read only the height is kept, since a pattern may not be nested too deep.
-/

namespace StreamControl.Pattern

/-- Parts of a pattern that stand side by side: how many there are and how high the highest is. -/
structure Row where
  count : Nat
  highest : Nat
deriving DecidableEq, Repr

namespace Row

/-- No parts. -/
def empty : Row := ⟨0, 0⟩

/-- The parts with one of a given height behind them. -/
def add (r : Row) (height : Nat) : Row := ⟨r.count + 1, max r.highest height⟩

/-- The height of the parts together; one by itself is no higher than it was. -/
def height (r : Row) : Nat := if r.count ≤ 1 then r.highest else r.highest + 1

end Row

/-- A set of which the end was not read. -/
structure OpenSet where
  /-- Nothing but dashes was read, so that a dash stands for itself. -/
  fresh : Bool
  /-- The height of what stands in front of the last combining sign. -/
  left : Option Nat
  members : Row
deriving DecidableEq, Repr

namespace OpenSet

/-- A set of which nothing was read. -/
def start : OpenSet := ⟨true, none, .empty⟩

/-- The height of what is between the brackets. -/
def height (s : OpenSet) : Nat :=
  match s.left with
  | none => s.members.height
  | some left => max left s.members.height + 1

/-- The set with a member of a given height. -/
def add (s : OpenSet) (height : Nat) : OpenSet :=
  { s with fresh := false, members := s.members.add height }

/-- The set behind a combining sign. -/
def combine (s : OpenSet) : OpenSet := ⟨false, some s.height, .empty⟩

/-! ## Members -/

/-- The names of classes. -/
def classNames : List String :=
  ["alnum", "alpha", "ascii", "blank", "cntrl", "digit", "graph", "lower", "print", "punct",
    "space", "upper", "word", "xdigit"]

/-- Reads a named class behind its bracket: whether it stands for all other characters, and what
follows. -/
def namedClass? (text : List Char) : Option (Bool × List Char) :=
  match text with
  | ':' :: text =>
    let others := text.head? == some '^'
    let text := if others then text.drop 1 else text
    match text.dropWhile (· ≠ ':') with
    | ':' :: ']' :: rest =>
      if classNames.contains (String.ofList (text.takeWhile (· ≠ ':'))) then some (others, rest)
      else none
    | _ => none
  | _ => none

/-! ## Reading -/

/-- Opens a set behind its bracket.  A set of bytes cannot be negated: bytes that belong to longer
characters would be in it. -/
def open? (mode : Mode) (text : List Char) : Option (OpenSet × List Char) :=
  match mode.skip text with
  | '^' :: rest => if mode.whole then some (.start, rest) else none
  | rest => some (.start, rest)

/-- The character behind a dash that tells whether the dash is part of a range.  Where blanks do not
count it is the first that is no blank, also behind the sign of a comment; if there is none, it is
the first character after all. -/
def behindDash? (mode : Mode) (text : List Char) : Option Char :=
  let next := match text.dropWhile Text.isBlank with
    | '#' :: comment => (comment.dropWhile Text.isBlank).head?
    | rest => rest.head?
  if mode.spaced then next.or text.head? else text.head?

/-- Reads a character, a class or a range; gives what follows. -/
def member? (mode : Mode) (text : List Char) : Option (List Char) := do
  let (first, rest) ← Symbol.readMember? mode text
  let rest := mode.skip rest
  -- the character or class by itself, if it may stand in a set
  let single := if first.isMember mode then some rest else none
  match rest with
  | '-' :: behind =>
    if [some ']', some '-'].contains (behindDash? mode behind) then single
    else
      let (last, rest) ← Symbol.readMember? mode (mode.skip behind)
      if first.isRange mode last then some rest else none
  | _ => single

/-- What a step within a set leads to. -/
inductive Outcome
  /-- The sets that are open, the innermost first. -/
  | inside (s : OpenSet) (outer : List OpenSet)
  /-- The outermost set is closed; it has the given height. -/
  | closed (height : Nat)
deriving DecidableEq, Repr

/-- The closing bracket of a set. -/
def close (s : OpenSet) (outer : List OpenSet) : Outcome :=
  match outer with
  | [] => .closed (s.height + 1)
  | t :: outer => .inside (t.add (s.height + 1)) outer

/-- Reads the next part of a set, which starts with a given character. -/
def step (mode : Mode) (s : OpenSet) (outer : List OpenSet) (c : Char) (rest : List Char) :
    Option (Outcome × List Char) :=
  if c = '[' then
    match namedClass? rest with
    | some (others, rest) =>
      -- there are no tables of cases, and a negated class would hold bytes of longer characters
      if if mode.whole then mode.caseless else others then none
      else some (.inside (s.add 0) outer, rest)
    | none => (open? mode rest).map fun (t, rest) => (.inside t (s :: outer), rest)
  else if c = ']' && !(s.fresh && s.members.count = 0) then some (close s outer, rest)
  -- at the start of a set dashes and a closing bracket stand for themselves
  else if s.fresh && c = '-' then
    if (Symbol.char c false).isMember mode then
      some (.inside { s with members := s.members.add 0 } outer, rest)
    else none
  else if s.fresh && c = ']' then
    if (Symbol.char c false).isMember mode then some (.inside (s.add 0) outer, rest) else none
  else if ['&', '-', '~'].contains c && rest.head? = some c then
    some (.inside s.combine outer, rest.drop 1)
  else
    (member? mode (c :: rest)).map fun rest => (.inside (s.add 0) outer, rest)

end OpenSet

end StreamControl.Pattern
