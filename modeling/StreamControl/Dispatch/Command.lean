import StreamControl.Message
import StreamControl.Operation

/-!
# Commands

A processor answers to up to two commands, one on its start branch and one on its stop branch.  A
message takes the branch whose command its operation names, in any case of ASCII letters; the start
branch is looked at first.  A message without an operation takes no branch, even if a command is the
empty text.
-/

namespace StreamControl

/-- The two branches of a processor. -/
inductive Branch
  | start
  | stop
deriving DecidableEq, Repr

/-- The name of a branch in the log. -/
def Branch.name : Branch → String
  | .start => "start"
  | .stop => "stop"

/-- The commands that a processor answers to. -/
structure Commands where
  start : Option String
  stop : Option String
deriving DecidableEq, Repr

namespace Commands

/-- Whether an operation names a command. -/
def isNamedBy (operation : String) (command : Option String) : Bool :=
  command.any (Operation.same operation)

/-- The branch that a message takes. -/
def branch? (names : Commands) (m : Message) : Option Branch :=
  match m.operation? with
  | none => none
  | some operation =>
    if isNamedBy operation names.start then some .start
    else if isNamedBy operation names.stop then some .stop
    else none

/-- The command of a branch. -/
def command? (names : Commands) : Branch → Option String
  | .start => names.start
  | .stop => names.stop

end Commands

end StreamControl
