import ClusterScaler.Duration
import ClusterScaler.Json.Basic
import ClusterScaler.Resources

/-!
# Cluster configuration

What a cluster consists of: its node types, the provider of its nodes, how nodes are reached and
set up, and the tunables of the control loop. Counts are 32-bit and times 64-bit natural numbers;
the readers of configurations check these ranges.
-/

set_option autoImplicit false

namespace ClusterScaler

/-- The tunables of the control loop. Times are in seconds. -/
structure Tunables where
  /-- Most nodes asked for in one request. -/
  maxLaunchBatch : Nat := 5
  /-- Most nodes pending or being requested in the whole cluster. -/
  maxConcurrentLaunches : Nat := 10
  updateInterval : Nat := 5
  heartbeatTimeout : Nat := 30
  /-- Provider failures within the window that trip the breaker. -/
  maxFailures : Nat := 5
  /-- The length of the failure window, in ticks. -/
  failureWindowTicks : Nat := 60
  idleTimeout : Nat := 300
  /-- The bound on one node update. -/
  updateTimeout : Nat := 300
  targetUtilization : Float := 0.8
  /-- Retries after a transient provider error. -/
  providerMaxRetries : Nat := 5
  /-- The bound on one tick. -/
  tickDeadline : Nat := 60

instance : Inhabited Tunables := ⟨{}⟩

/-- Where nodes come from. -/
inductive ProviderConfig where
  /-- A fixed pool of hosts, grouped by node type. `externalIps` maps an internal address to the
  one that is reachable from outside. -/
  | pool (statePath : Option String) (hosts : Table String (List String))
      (externalIps : Table String String)
  /-- Nodes that exist in memory only. -/
  | inMemory (autoRun : Bool)

/-- The word for the kind of a provider. -/
def ProviderConfig.kind : ProviderConfig → String
  | .pool .. => "static"
  | .inMemory _ => "fake"

/-- How nodes are logged in to. -/
structure AuthConfig where
  sshUser : String := "root"
  sshPrivateKey : Option String := none
  sshPort : Nat := 22
  deriving DecidableEq, Inhabited

/-- The container that commands run in. -/
structure DockerConfig where
  image : String
  containerName : String
  runOptions : List String := []
  deriving DecidableEq, Inhabited

/-- One type of nodes. -/
structure NodeTypeConfig where
  minWorkers : Nat := 0
  maxWorkers : Nat
  /-- The capacity of one node. -/
  resources : Resources Float := ∅
  /-- The members of the provider's own template, passed through. -/
  nodeConfig : List (String × Json) := []
  /-- Remote destination to local source. -/
  fileMounts : Table String String := ∅
  setupCommands : List String := []
  startCommands : List String := []

/-- The configuration of a cluster. -/
structure ClusterConfig where
  clusterName : String
  headNodeType : String
  tunables : Tunables := {}
  provider : ProviderConfig
  auth : AuthConfig := {}
  docker : Option DockerConfig := none
  /-- Remote destination to local source, for every node type. -/
  fileMounts : Table String String := ∅
  /-- Commands that every node type runs before its own. -/
  setupCommands : List String := []
  nodeTypes : Table String NodeTypeConfig

namespace Tunables

/-- The time between ticks. -/
def updateIntervalDuration (t : Tunables) : Duration := .ofSeconds t.updateInterval

/-- The bound on one node update. -/
def updateTimeoutDuration (t : Tunables) : Duration := .ofSeconds t.updateTimeout

/-- The bound on one tick. -/
def tickDeadlineDuration (t : Tunables) : Duration := .ofSeconds t.tickDeadline

end Tunables

namespace ClusterConfig

/-- A node type by name. -/
def nodeType? (c : ClusterConfig) (name : String) : Option NodeTypeConfig := c.nodeTypes.get? name

/-- Whether a name is that of the head type. -/
def isHead (c : ClusterConfig) (name : String) : Bool := c.headNodeType == name

/-- The mounts of a node type: the global ones overlaid by its own. -/
def fileMountsFor (c : ClusterConfig) (name : String) : Table String String :=
  match c.nodeType? name with
  | some t => c.fileMounts.overlay t.fileMounts
  | none => c.fileMounts

/-- The names of the node types, the head type first and the others in order. -/
def nodeTypeOrder (c : ClusterConfig) : List String :=
  c.headNodeType :: c.nodeTypes.keys.filter (· != c.headNodeType)

end ClusterConfig

end ClusterScaler
