import StreamControl.Text.Blank

/-!
# Modes of search patterns

A search pattern describes texts.  How its characters count can be changed within it, from one place
to the end of the group that it stands in: `Mode` is what holds at a place.
-/

namespace StreamControl.Pattern

/-- How the characters of a pattern count at a place. -/
structure Mode where
  /-- Letters stand for both of their cases. -/
  caseless : Bool
  /-- Whole characters are matched, otherwise single bytes. -/
  whole : Bool
  /-- Blanks and comments do not count. -/
  spaced : Bool
deriving DecidableEq, Repr

namespace Mode

/-- The mode in which a pattern starts. -/
def initial : Mode := ⟨false, true, false⟩

/-- The letters of the options that change how a pattern counts.  Those without a part in `Mode`
change what is found and not what can be written. -/
def optionLetters : List Char := ['i', 'm', 's', 'U', 'u', 'R', 'x']

/-- Whether a text consists of options: each at most once, with a dash in front of those that are
switched off. -/
def areOptions (text : List Char) : Bool :=
  text.all (fun c => c = '-' || optionLetters.contains c) && text.eraseDups.length = text.length &&
    text.getLast? ≠ some '-'

/-- Switches an option on or off if it is among some others. -/
def switch (options : List Char) (letter : Char) (old : Bool) : Bool :=
  if options.contains letter then (options.takeWhile (· ≠ '-')).contains letter else old

/-- The mode that some options lead to. -/
def apply (mode : Mode) (options : List Char) : Mode :=
  ⟨switch options 'i' mode.caseless, switch options 'u' mode.whole, switch options 'x' mode.spaced⟩

/-- A text without the blanks and the comments in front, a comment going from `#` to the end of its
line. -/
def skipBlanks (inComment : Bool) : List Char → List Char
  | [] => []
  | c :: text =>
    if inComment then skipBlanks (c ≠ '\n') text
    else if c = '#' then skipBlanks true text
    else if Text.isBlank c then skipBlanks false text
    else c :: text

/-- A text without what does not count in front. -/
def skip (mode : Mode) (text : List Char) : List Char :=
  if mode.spaced then skipBlanks false text else text

end Mode

end StreamControl.Pattern
