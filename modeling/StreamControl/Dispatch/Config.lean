import StreamControl.Operation
import StreamControl.Streams.Basic

/-!
# Configuration

Where replies are stored, whether rejected events are among them, and which streams the engine keeps
for itself.
-/

namespace StreamControl

/-- The settings of an engine. -/
structure Config where
  /-- The name of this engine among others. -/
  nodeId : String
  /-- The root of the paths at which replies are stored. -/
  coordinationRoot : String
  /-- Whether the replies to rejected events are stored; if not, they are only logged. -/
  acknowledgeInserts : Bool
  /-- The streams that the engine owns. -/
  internalStreams : List String
  /-- The operations that the engine's streams admit. -/
  internalOperations : List String
deriving DecidableEq, Repr

namespace Config

/-- The settings unless others are given. -/
def default : Config :=
  { nodeId := ""
    coordinationRoot := "/strata/streaming/replies"
    acknowledgeInserts := false
    internalStreams := ["strata_stats_base", "strata_stats_by_operation"]
    internalOperations :=
      [Operation.listen, Operation.stopListen, Operation.index, Operation.stopIndex] }

/-- The streams with which an engine begins: its own, without columns. -/
def streams (c : Config) : Streams :=
  c.internalStreams.foldl (fun s name => s.reserve (.internal name []))
    (.empty c.internalOperations)

end Config

end StreamControl
