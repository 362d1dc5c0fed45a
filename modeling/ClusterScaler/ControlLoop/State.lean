import ClusterScaler.Hashing.Files
import ClusterScaler.Load
import ClusterScaler.Status
import ClusterScaler.Update.Pool

/-!
# The state of the control loop

What the control loop keeps between ticks. Everything it remembers about nodes is a cache that
every tick derives again from the provider; what it shares with the interface in front of it are
its `Feeds`.
-/

set_option autoImplicit false

namespace ClusterScaler

/-- A command of an operator, applied at the start of the next tick. -/
inductive ControlCommand where
  | resetBreaker
  | reconfigure (config : ClusterConfig)

/-- Why a tick or a change of the configuration failed. -/
inductive LoopError where
  | provider (e : ProviderError)
  /-- The provider lists a node more than once. -/
  | listedTwice (node : NodeId)
  /-- The name of a cluster cannot change, since its nodes are found by it. -/
  | renamed (current proposed : String)
  | hash (e : HashError)
  /-- A tick took longer than so many seconds. -/
  | deadline (seconds : Nat)
  deriving DecidableEq

/-- The message of a loop error. -/
def LoopError.message : LoopError → String
  | provider e => "provider error: " ++ e.message
  | listedTwice node => "cluster state mismatch: node " ++ node.text ++ " listed more than once"
  | renamed current proposed =>
    "cluster state mismatch: cluster name cannot change from " ++ Text.quoted current ++ " to "
      ++ Text.quoted proposed
  | hash e => "hashing error: " ++ e.message
  | deadline seconds => "tick exceeded its " ++ natText seconds ++ "s deadline"

/-- What the control loop shares with the interface in front of it. -/
structure Feeds where
  loads : LoadStore Float
  demand : Demand Float := []
  /-- Commands that wait for the next tick, in order. -/
  commands : List ControlCommand := []
  status : ClusterStatus

/-- The state of the control loop. -/
structure ControlLoop extends Feeds where
  config : ClusterConfig
  hashes : Table String NodeTypeHashes
  updaters : UpdaterPool := {}
  /-- Outcomes taken out of the pool between ticks, merged by the next one. -/
  finished : List UpdateOutcome := []
  /-- How often updaters look at a node that is not ready. -/
  pollInterval : Duration := .ofSeconds 5
  breaker : Breaker
  retry : RetryPolicy
  /-- Nodes whose update failed; the next tick terminates them. -/
  tainted : List NodeId := []
  states : Table NodeId NodeState := ∅
  ticks : Nat := 0
  launched : Nat := 0
  terminated : Nat := 0
  updateFailures : Nat := 0

namespace ControlLoop

/-- The loop of a configuration before its first tick. -/
def new (files : FileStore) (config : ClusterConfig) : Except HashError ControlLoop := do
  let hashes ← hashesFor files config
  let t := config.tunables
  let breaker := Breaker.new t.maxFailures t.failureWindowTicks
  return {
    config, hashes, breaker
    loads := LoadStore.new t.heartbeatTimeout
    status := ClusterStatus.initial config.clusterName breaker.state
    retry := { maxRetries := t.providerMaxRetries } }

/-- An operator's reset of the breaker, published at once. -/
def resetBreaker (l : ControlLoop) : ControlLoop :=
  let breaker := l.breaker.reset
  { l with breaker, status := { l.status with breaker := breaker.state } }

/-- Take over a configuration of the same cluster. All its hashes are computed before anything
changes. -/
def reconfigure (l : ControlLoop) (files : FileStore) (config : ClusterConfig) :
    Except LoopError ControlLoop :=
  if config.clusterName ≠ l.config.clusterName then
    .error (.renamed l.config.clusterName config.clusterName)
  else
    match hashesFor files config with
    | .error e => .error (.hash e)
    | .ok hashes =>
      let t := config.tunables
      .ok { l with
        config, hashes
        breaker := l.breaker.setLimits t.maxFailures t.failureWindowTicks
        retry := { l.retry with maxRetries := t.providerMaxRetries }
        loads := l.loads.setHeartbeatTimeout t.heartbeatTimeout }

/-- Apply a command. A configuration that is rejected changes nothing. -/
def obey (files : FileStore) (l : ControlLoop) : ControlCommand → ControlLoop
  | .resetBreaker => l.resetBreaker
  | .reconfigure config =>
    match l.reconfigure files config with
    | .ok l => l
    | .error _ => l

/-- Apply the commands that wait, in order. -/
def applyCommands (l : ControlLoop) (files : FileStore) : ControlLoop :=
  l.commands.foldl (obey files) { l with commands := [] }

/-- Take note of the ends of updaters. -/
def complete (l : ControlLoop) (ends : List (NodeId × UpdaterEnd)) : ControlLoop :=
  { l with updaters := l.updaters.completeAll ends }

/-- Publish the error of a tick. -/
def publishError (l : ControlLoop) (e : LoopError) : ControlLoop :=
  { l with status := { l.status with lastError := some e.message } }

end ControlLoop

end ClusterScaler
