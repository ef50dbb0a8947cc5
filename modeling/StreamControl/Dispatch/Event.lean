import StreamControl.Dispatch.Command
import StreamControl.Dispatch.Report
import StreamControl.Text.Quoted

/-!
# Events

What the dispatcher reports about its work while it goes on.  Each event has a level, a message and
named fields.  The full chain of an internal error appears in one place only: in the event `failed`.
-/

namespace StreamControl

/-- How much an event matters. -/
inductive Level
  | trace
  | debug
  | info
  | warn
  | error
deriving DecidableEq, Repr

namespace Level

/-- The name of a level. -/
def name : Level → String
  | .trace => "TRACE"
  | .debug => "DEBUG"
  | .info => "INFO"
  | .warn => "WARN"
  | .error => "ERROR"

/-- The rank of a level: what matters more ranks higher. -/
def rank : Level → Nat
  | .trace => 0
  | .debug => 1
  | .info => 2
  | .warn => 3
  | .error => 4

/-- Every level. -/
def all : List Level := [.trace, .debug, .info, .warn, .error]

/-- The level with a given name. -/
def ofName? (name : String) : Option Level := all.find? fun l => l.name == name

end Level

/-- What there is to say about a processor: its name, its commands and the validators on each branch
that it has. -/
structure ProcessorSummary where
  name : String
  commands : Commands
  startChain : Option (List String)
  stopChain : Option (List String)
deriving DecidableEq, Repr

/-- Something that happened. -/
inductive Event
  | streamCreated (stream : String) (columns : Nat)
  | streamRemoved (stream : String)
  | validatorSkipped (validator : String)
  | validatorRejected (validator : String) (code : ReplyCode)
  | processorBuilt (summary : ProcessorSummary)
  | processorRegistered (processor : String) (commands : Commands)
  | unmatched (processor operation : String)
  | validating (processor : String) (branch : Branch) (requestId sessionId : String)
  | rejected (processor requestId : String) (f : Refusal)
  | failed (processor requestId sessionId : String) (e : InternalError)
  | batchProcessed (processor : String) (report : Report)
  | acknowledgmentWritten (path : String) (code : ReplyCode)
  | acknowledgmentNotStored (requestId sessionId : String) (reply : Reply)
  | streamDefined (stream : String) (columns : Nat)
  | streamDropped (stream : String)
  | eventInserted (stream : String) (columns : Nat)
  | dispatchStarted (nodeId : String) (messages processors : Nat)
  | processorFinished (processor : String) (report : Report)
deriving DecidableEq, Repr

/-! ## Wording -/

/-- An optional value, named as present or absent. -/
def optionText {α : Type} (text : α → String) : Option α → String
  | none => "None"
  | some a => "Some(" ++ text a ++ ")"

/-- Names and values between braces. -/
def fieldsText (head : String) (fields : List (String × String)) (tail : String) : String :=
  head ++ " \x7b " ++ ", ".intercalate (fields.map fun f => f.1 ++ ": " ++ f.2) ++ tail ++ " \x7d"

/-- The commands of a processor on one line. -/
def Commands.text (c : Commands) : String :=
  fieldsText "CommandNames"
    [("start", optionText Text.quoted c.start), ("stop", optionText Text.quoted c.stop)] ""

/-- A processor on one line; that it has further parts is only hinted at. -/
def ProcessorSummary.text (s : ProcessorSummary) : String :=
  fieldsText "ActionProcessor"
    [("name", Text.quoted s.name), ("commands", s.commands.text),
      ("start_chain", optionText Text.quotedList s.startChain),
      ("stop_chain", optionText Text.quotedList s.stopChain)] ", .."

namespace Event

/-- How much an event matters. -/
def level : Event → Level
  | .unmatched .. => .trace
  | .streamDefined .. | .streamDropped .. | .processorRegistered .. => .info
  | .dispatchStarted .. | .processorFinished .. => .info
  | .rejected .. => .warn
  | .failed .. => .error
  | _ => .debug

/-- What happened. -/
def message : Event → String
  | .streamCreated .. => "stream created"
  | .streamRemoved .. => "stream dropped"
  | .validatorSkipped .. => "duplicate validator skipped"
  | .validatorRejected .. => "validator rejected message"
  | .processorBuilt .. => "processor built"
  | .processorRegistered .. => "processor registered"
  | .unmatched .. => "no command path matched"
  | .validating .. => "validating request"
  | .rejected .. => "request rejected"
  | .failed .. => "request failed"
  | .batchProcessed .. => "batch processed"
  | .acknowledgmentWritten .. => "acknowledgment written"
  | .acknowledgmentNotStored .. => "acknowledgment not persisted"
  | .streamDefined .. => "stream defined"
  | .streamDropped .. => "stream dropped"
  | .eventInserted .. => "event inserted"
  | .dispatchStarted .. => "dispatching batch"
  | .processorFinished .. => "processor finished"

/-- The counts that are told of every report. -/
def countFields (r : Report) : List (String × String) :=
  [("received", toString r.received), ("dropped", toString r.dropped),
    ("completed", toString r.completed), ("rejected", toString r.rejected),
    ("failed", toString r.failed)]

/-- The details of an event. -/
def fields : Event → List (String × String)
  | .streamCreated stream columns => [("stream", stream), ("columns", toString columns)]
  | .streamRemoved stream => [("stream", stream)]
  | .validatorSkipped validator => [("validator", validator)]
  | .validatorRejected validator code =>
    [("validator", validator), ("code", toString code.number)]
  | .processorBuilt summary => [("processor", summary.text)]
  | .processorRegistered processor commands =>
    [("processor", processor), ("commands", commands.text)]
  | .unmatched processor operation => [("processor", processor), ("operation", operation)]
  | .validating processor branch requestId sessionId =>
    [("processor", processor), ("path", branch.name), ("request_id", requestId),
      ("session_id", sessionId)]
  | .rejected processor requestId f =>
    [("processor", processor), ("request_id", requestId), ("code", toString f.code.number),
      ("detail", f.detail)]
  | .failed processor requestId sessionId e =>
    [("processor", processor), ("request_id", requestId), ("session_id", sessionId),
      ("error", e.chain)]
  | .batchProcessed processor report => ("processor", processor) :: countFields report
  | .acknowledgmentWritten path code => [("path", path), ("code", toString code.number)]
  | .acknowledgmentNotStored requestId sessionId reply =>
    [("request_id", requestId), ("session_id", sessionId), ("code", toString reply.code.number),
      ("detail", reply.detail.getD "")]
  | .streamDefined stream columns => [("stream", stream), ("columns", toString columns)]
  | .streamDropped stream => [("stream", stream)]
  | .eventInserted stream columns => [("stream", stream), ("columns", toString columns)]
  | .dispatchStarted nodeId messages processors =>
    [("node_id", nodeId), ("messages", toString messages), ("processors", toString processors)]
  | .processorFinished processor report =>
    ("processor", processor) :: countFields report ++
      [("acknowledged", toString report.acknowledged)]

/-- The events that matter at least as much as a level. -/
def atLeast (l : Level) (events : List Event) : List Event :=
  events.filter fun e => l.rank ≤ e.level.rank

end Event

end StreamControl
