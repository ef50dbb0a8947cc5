import StreamControl.Dispatch.Config

/-!
# Command-line options

The command takes the file of a batch and options that override the settings of the engine.  An
option that is not given on the command line may be set in the environment; otherwise it has a
default.  Options that take one value may be given once, the list of streams may be given in parts.
-/

namespace StreamControl.Command

/-- The layout of log lines. -/
inductive LogLayout
  | text
  | json
deriving DecidableEq, Repr

/-- The layout with a given name; case counts. -/
def LogLayout.ofName? : String → Option LogLayout
  | "text" => some .text
  | "json" => some .json
  | _ => none

/-- The settings that take a value. -/
inductive Setting
  | nodeId
  | coordinationRoot
  | internalStreams
  | logFormat
  | logFilter
deriving DecidableEq, Repr

namespace Setting

/-- Every setting. -/
def all : List Setting := [.nodeId, .coordinationRoot, .internalStreams, .logFormat, .logFilter]

/-- The option of a setting, without its dashes. -/
def option : Setting → String
  | .nodeId => "node-id"
  | .coordinationRoot => "coordination-root"
  | .internalStreams => "internal-streams"
  | .logFormat => "log-format"
  | .logFilter => "log-filter"

/-- The variable of a setting in the environment. -/
def envName : Setting → String
  | .nodeId => "STRATA_NODE_ID"
  | .coordinationRoot => "STRATA_COORDINATION_ROOT"
  | .internalStreams => "STRATA_INTERNAL_STREAMS"
  | .logFormat => "STRATA_LOG_FORMAT"
  | .logFilter => "STRATA_LOG"

/-- The setting of an option. -/
def ofOption? (option : String) : Option Setting := all.find? fun s => s.option == option

end Setting

/-- The option that has replies to rejected events stored. -/
def acknowledgeOption : String := "acknowledge-inserts"

/-- The variable that has replies to rejected events stored. -/
def acknowledgeVariable : String := "STRATA_ACKNOWLEDGE_INSERTS"

/-- A mistake on the command line or in the environment. -/
inductive UsageError
  | unknownOption (argument : String)
  | unexpectedArgument (argument : String)
  | missingValue (s : Setting)
  | unexpectedValue (option : String)
  | repeated (option : String)
  | badValue (name value : String)
  | missingBatch
deriving DecidableEq, Repr

/-- The wording of a mistake. -/
def UsageError.message : UsageError → String
  | .unknownOption argument => "unknown option " ++ argument
  | .unexpectedArgument argument => "unexpected argument " ++ argument
  | .missingValue s => "option --" ++ s.option ++ " needs a value"
  | .unexpectedValue option => "option --" ++ option ++ " takes no value"
  | .repeated option => "option --" ++ option ++ " is given more than once"
  | .badValue name value => "invalid value " ++ value ++ " for " ++ name
  | .missingBatch => "no batch file is given"

/-! ## Settings given so far -/

/-- What was given so far. -/
structure Given where
  batch : Option String
  acknowledgeInserts : Option Bool
  nodeId : Option String
  coordinationRoot : Option String
  internalStreams : Option (List String)
  logFormat : Option LogLayout
  logFilter : Option String
deriving DecidableEq, Repr

namespace Given

/-- Nothing was given. -/
def nothing : Given := ⟨none, none, none, none, none, none, none⟩

/-- Sets what may be set once. -/
def once {α : Type} (s : Setting) (old : Option α) (new : α) : Except UsageError (Option α) :=
  match old with
  | some _ => .error (.repeated s.option)
  | none => .ok (some new)

/-- Gives a setting a value, which may add to the streams given before. -/
def set (g : Given) (s : Setting) (value : String) : Except UsageError Given :=
  match s with
  | .nodeId => (once s g.nodeId value).map fun nodeId => { g with nodeId }
  | .coordinationRoot =>
    (once s g.coordinationRoot value).map fun coordinationRoot => { g with coordinationRoot }
  | .internalStreams =>
    .ok { g with internalStreams := some (g.internalStreams.getD [] ++ value.splitOn ",") }
  | .logFormat =>
    match LogLayout.ofName? value with
    | none => .error (.badValue s.option value)
    | some format => (once s g.logFormat format).map fun logFormat => { g with logFormat }
  | .logFilter => (once s g.logFilter value).map fun logFilter => { g with logFilter }

/-- Whether a setting has a value. -/
def has (g : Given) : Setting → Bool
  | .nodeId => g.nodeId.isSome
  | .coordinationRoot => g.coordinationRoot.isSome
  | .internalStreams => g.internalStreams.isSome
  | .logFormat => g.logFormat.isSome
  | .logFilter => g.logFilter.isSome

/-- Has replies to rejected events stored. -/
def acknowledge (g : Given) : Except UsageError Given :=
  match g.acknowledgeInserts with
  | some _ => .error (.repeated acknowledgeOption)
  | none => .ok { g with acknowledgeInserts := some true }

/-- Takes the file of the batch. -/
def take (g : Given) (path : String) : Except UsageError Given :=
  match g.batch with
  | some _ => .error (.unexpectedArgument path)
  | none => if path = "" then .error .missingBatch else .ok { g with batch := some path }

end Given

/-! ## Arguments -/

/-- What the command line asks for. -/
inductive Asked (α : Type)
  | help
  | version
  | run (a : α)
deriving DecidableEq, Repr

/-- The form of an argument. -/
inductive Argument
  /-- Two dashes: no options follow. -/
  | noMoreOptions
  /-- An option by its name, perhaps with a value behind an equals sign. -/
  | long (name : String) (value : Option String)
  /-- An option by a letter. -/
  | short (letter : Char)
  /-- Anything else, also a lone dash. -/
  | plain (text : String)
deriving DecidableEq, Repr

/-- The form of an argument. -/
def Argument.ofText (text : String) : Argument :=
  match text.toList with
  | ['-', '-'] => .noMoreOptions
  | '-' :: '-' :: rest =>
    let name := rest.takeWhile (· ≠ '=')
    match rest.dropWhile (· ≠ '=') with
    | [] => .long (String.ofList name) none
    | _ :: value => .long (String.ofList name) (some (String.ofList value))
  -- of letters written together only the first is looked at
  | '-' :: letter :: _ => .short letter
  | _ => .plain text

/-- Takes a whole argument that is not the value of an option. -/
def Given.takeLong (g : Given) (name : String) (value : Option String) :
    Except UsageError (Given × Option Setting) :=
  match Setting.ofOption? name, value with
  | some s, some value => (g.set s value).map fun g => (g, none)
  | some s, none => .ok (g, some s)
  | none, value =>
    if name = acknowledgeOption then
      if value.isSome then .error (.unexpectedValue name) else g.acknowledge.map fun g => (g, none)
    else .error (.unknownOption ("--" ++ name))

/-- Reads the arguments in order.  `waiting` is the setting whose value comes next, and `plainOnly`
says that no options follow. -/
def readArguments (plainOnly : Bool) (waiting : Option Setting) (g : Given) :
    List String → Except UsageError (Asked Given)
  | [] =>
    match waiting with
    | some s => .error (.missingValue s)
    | none => .ok (.run g)
  | argument :: rest =>
    match (if plainOnly then .plain argument else Argument.ofText argument), waiting with
    | .plain text, none => do readArguments plainOnly none (← g.take text) rest
    | .plain text, some s => do readArguments plainOnly none (← g.set s text) rest
    -- an option cannot be the value of another
    | _, some s => .error (.missingValue s)
    | .noMoreOptions, none => readArguments true none g rest
    | .short letter, none =>
      if letter = 'V' then .ok .version
      else if letter = 'h' then .ok .help
      else .error (.unknownOption argument)
    | .long "version" none, none => .ok .version
    | .long "help" none, none => .ok .help
    | .long name value, none => do
      let (g, waiting) ← g.takeLong name value
      readArguments plainOnly waiting g rest

/-! ## Environment -/

/-- Takes a setting from the environment, unless the command line gave it a value. -/
def Given.fromEnvironment (environment : String → Option String) (g : Given) :
    List Setting → Except UsageError Given
  | [] => .ok g
  | s :: rest => do
    -- the command line comes first
    match (if g.has s then none else environment s.envName) with
    | none => g.fromEnvironment environment rest
    | some value => (← g.set s value).fromEnvironment environment rest

/-- Takes from the environment whether replies to rejected events are stored, unless the command
line says so. -/
def Given.acknowledgeFromEnvironment (environment : String → Option String) (g : Given) :
    Except UsageError Given :=
  match (if g.acknowledgeInserts.isSome then none else environment acknowledgeVariable) with
  | none => .ok g
  | some "true" => .ok { g with acknowledgeInserts := some true }
  | some "false" => .ok { g with acknowledgeInserts := some false }
  | some value => .error (.badValue acknowledgeVariable value)

/-! ## Options -/

/-- What the command runs with. -/
structure Options where
  /-- The file of the batch. -/
  batch : String
  config : Config
  logFormat : LogLayout
  logFilter : Option String
deriving DecidableEq, Repr

/-- Fills what was not given. -/
def Given.options (g : Given) : Except UsageError Options :=
  match g.batch with
  | none => .error .missingBatch
  | some batch =>
    .ok
      { batch
        config :=
          { Config.default with
            nodeId := g.nodeId.getD "local"
            coordinationRoot := g.coordinationRoot.getD Config.default.coordinationRoot
            acknowledgeInserts := g.acknowledgeInserts.getD false
            internalStreams := g.internalStreams.getD Config.default.internalStreams }
        logFormat := g.logFormat.getD .text
        logFilter := g.logFilter }

/-- Reads the command line and the environment. -/
def readOptions (arguments : List String) (environment : String → Option String) :
    Except UsageError (Asked Options) := do
  match ← readArguments false none .nothing arguments with
  | .help => return .help
  | .version => return .version
  | .run g =>
    -- what the command line leaves open is looked for in the environment
    let g ← g.fromEnvironment environment Setting.all
    let g ← g.acknowledgeFromEnvironment environment
    return .run (← g.options)

end StreamControl.Command
