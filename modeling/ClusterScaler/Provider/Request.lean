import ClusterScaler.Hashing.Launch
import ClusterScaler.Program
import ClusterScaler.Provider.Error

/-!
# Requests

Everything that the control loop and its updaters ask of the world: calls to the node provider,
commands and copies on a node, and pauses. Programs over these requests do not depend on the
provider that answers them.
-/

set_option autoImplicit false

namespace ClusterScaler

/-- How a node is reached by a remote shell. -/
structure SshConnection where
  address : String
  auth : AuthConfig
  /-- Seconds. -/
  connectTimeout : Nat := 10
  deriving DecidableEq

/-- What carries out commands and copies on one node. -/
inductive Runner where
  /-- Commands are recorded instead of executed, under the node if one is given. -/
  | recording (node : Option NodeId)
  | ssh (connection : SshConnection)

/-- A request to the world. -/
inductive Request where
  /-- The live nodes that carry all the given tags. -/
  | listNodes (filter : Tags)
  | isRunning (node : NodeId)
  | isTerminated (node : NodeId)
  | nodeTags (node : NodeId)
  /-- Add the given tags to those of a node. -/
  | setNodeTags (node : NodeId) (tags : Tags)
  | internalIp (node : NodeId)
  | externalIp (node : NodeId)
  /-- Make new nodes with the given tags: all of them or none. -/
  | createNodes (template : LaunchConfig) (tags : Tags) (count : Nat)
  | terminateNode (node : NodeId)
  | terminateNodes (nodes : List NodeId)
  | commandRunner (node : NodeId) (auth : AuthConfig)
  /-- Run a command in the shell of a node. -/
  | run (runner : Runner) (command : String)
  /-- Copy a local file or directory to a place on a node. -/
  | sync (runner : Runner) (source target : String)
  | pause (d : Duration)

/-- The answer to a request. -/
@[reducible]
def Request.Reply : Request → Type
  | listNodes _ => ProviderResult (List NodeId)
  | isRunning _ | isTerminated _ => ProviderResult Bool
  | nodeTags _ => ProviderResult Tags
  | internalIp _ | externalIp _ => ProviderResult String
  | setNodeTags .. | createNodes .. | terminateNode _ | terminateNodes _ => ProviderResult Unit
  | commandRunner .. => ProviderResult Runner
  | run .. => Except RunnerError CommandOutput
  | sync .. => Except RunnerError Unit
  | pause _ => Unit

/-- A program over requests to the world. -/
abbrev Routine (α : Type) := Program Request Request.Reply α

/-- Make one request. -/
def Request.make (r : Request) : Routine r.Reply := Program.call r

end ClusterScaler
