import StreamControl.Command.Filter
import StreamControl.Command.Options
import StreamControl.Dispatch.Standard

/-!
# The command

`dispatch-batch` gives the batch in a file to the standard processors of a new engine and prints
every acknowledgment that was stored, one document on a line, in the order of their paths.  `plan`
decides what the command does; all that is left to its caller is to read one file and to print.
-/

namespace StreamControl.Command

/-- What the command ends with: the lines it prints, and how it exits. -/
structure Exit where
  lines : List Bytes
  code : UInt8
  /-- What went wrong, unless it was the command line itself. -/
  error : Option String
deriving DecidableEq, Repr

/-- What the command does next. -/
inductive Plan
  /-- It ends. -/
  | finish (e : Exit)
  /-- The command line is wrong. -/
  | refuse (e : UsageError)
  /-- It reads a file and ends with what comes of its content, nothing if it cannot be read. -/
  | load (path : String) (andThen : Option Bytes → Exit)

namespace Exit

/-- The command prints some lines and all went well. -/
def printing (lines : List Bytes) : Exit := ⟨lines, 0, none⟩

/-- The command prints some lines and then fails. -/
def failing (lines : List Bytes) (error : String) : Exit := ⟨lines, 1, some error⟩

/-- The command breaks off. -/
def aborting : Exit := ⟨[], 101, none⟩

end Exit

/-! ## Log filters -/

/-- The variable that gives a log filter where no option does. -/
def fallbackFilterVariable : String := "RUST_LOG"

/-- Checks the log filter that an option gives, or else the one to fall back on, which may be
malformed and then does not count. -/
def checkFilters (given fallback : Option String) : Except Exit Unit :=
  match given, fallback.map Filter.check with
  | some filter, _ =>
    match Filter.check filter with
    | .error .malformed => .error (.failing [] ("invalid log filter " ++ Text.quoted filter))
    | .error .broken => .error .aborting
    | .ok () => .ok ()
  -- a fallback that is malformed does not count, one that breaks the reader does
  | none, some (.error .broken) => .error .aborting
  | none, _ => .ok ()

/-! ## Dispatching -/

/-- The acknowledgments at the given paths of a store, up to the first that cannot be read. -/
def printRecords (store : Store) : (printed : List Bytes) → List String → Exit
  | printed, [] => .printing printed.reverse
  | printed, path :: rest =>
    match store.get? path with
    -- a path that was listed has a node; one without is passed over all the same
    | none => printRecords store printed rest
    | some node =>
      match Acknowledgment.decode node.data with
      | .ok record => printRecords store (record.json :: printed) rest
      | .error _ => .failing printed.reverse ("corrupt acknowledgment at " ++ path)

/-- Dispatches a batch in a new engine, with the reports of the processors as events. -/
def dispatch (config : Config) (clock : Clock) (batch : List Message) :
    Ran Engine (Except Undelivered (List (String × Report))) :=
  let registry := Standard.registry config
  let work : Step Engine (Except Undelivered (List (String × Report))) := do
    Step.emit (.dispatchStarted config.nodeId batch.length registry.size)
    match ← registry.dispatch batch with
    | .error e => return .error e
    | .ok reports =>
      Step.emitAll (reports.map fun (name, report) => .processorFinished name report)
      return .ok reports
  work (Engine.new config clock)

/-- What comes of the content of the file. -/
def dispatchFile (options : Options) (clock : Clock) : Option Bytes → Exit
  | none => .failing [] ("failed to read " ++ options.batch)
  | some content =>
    match Message.decodeBatch content with
    | .error _ => .failing [] ("failed to decode batch " ++ options.batch)
    | .ok batch =>
      let ran := dispatch options.config clock batch
      match ran.result with
      | .error e => .failing [] e.message
      | .ok _ =>
        let store := ran.state.coordination.store
        printRecords store [] (store.list options.config.coordinationRoot)

/-- What the command says about itself. -/
def versionLine : String := "dispatch-batch 0.1.0"

/-- How the command is used. -/
def helpLines : List String :=
  ["Dispatch a batch of streaming control messages", "",
    "Usage: dispatch-batch [OPTIONS] <BATCH>", "",
    "Options:"] ++
    Setting.all.map (fun s => "  --" ++ s.option ++ " <VALUE>  [env: " ++ s.envName ++ "]") ++
    ["  --" ++ acknowledgeOption ++ "  [env: " ++ acknowledgeVariable ++ "]",
      "  -h, --help", "  -V, --version"]

/-- What the command does for the given arguments, environment and clock. -/
def plan (arguments : List String) (environment : String → Option String) (clock : Clock) : Plan :=
  match readOptions arguments environment with
  | .error e => .refuse e
  | .ok .help => .finish (.printing (helpLines.map utf8))
  | .ok .version => .finish (.printing [utf8 versionLine])
  -- the filters are checked before the file is looked for
  | .ok (.run options) =>
    match checkFilters options.logFilter (environment fallbackFilterVariable) with
    | .error e => .finish e
    | .ok () => .load options.batch (dispatchFile options clock)

end StreamControl.Command
