import ClusterScaler.Config.Loading
import ClusterScaler.ControlLoop.State
import ClusterScaler.Json.Reader

/-!
# Feeding the control loop

What nodes, schedulers and operators may tell the control loop: heartbeats, demand and commands.
A refusal comes without new feeds, so that what is refused changes nothing. Of heartbeats and
demand only finite amounts that are not negative are taken.
-/

set_option autoImplicit false

namespace ClusterScaler

/-- Why something was not taken. -/
inductive Refusal where
  | emptyNodeId
  /-- The amount of a resource is negative or not finite. -/
  | badAmount (part resource : String) (amount : Float)
  /-- The last heartbeat of the node is younger. -/
  | outdatedHeartbeat
  | noConfigFile
  | badConfig (e : ConfigError)
  /-- The published name of the cluster is another one. -/
  | clusterRenamed (current proposed : String)
  | loopNotRunning

/-- The message of a refusal. -/
def Refusal.message : Refusal → String
  | emptyNodeId => "node_id must not be empty"
  | badAmount part resource amount =>
    part ++ ": invalid amount " ++ Decimal.plain.render amount ++ " for " ++ resource
  | outdatedHeartbeat => "heartbeat older than the last one"
  | noConfigFile => "daemon was started without a config file"
  | badConfig e => e.message
  | clusterRenamed current proposed =>
    "cluster_name cannot change on reload (" ++ current ++ " -> " ++ proposed ++ ")"
  | loopNotRunning => "control loop is not running"

/-- A heartbeat of a node. -/
structure Heartbeat where
  node : NodeId
  used : Resources Float := ∅
  available : Resources Float := ∅

/-- The resources that a document holds. -/
def Reader.resources : Reader (Resources Float) :=
  fun d => do return ⟨← Reader.table Reader.float d⟩

/-- The settings of a heartbeat. -/
def Heartbeat.fields : List (Reader.Field Heartbeat) :=
  [⟨"node_id", true, fun h d => do return { h with node := ⟨← Reader.text d⟩ }⟩,
    ⟨"used", false, fun h d => do return { h with used := ← Reader.resources d }⟩,
    ⟨"available", false, fun h d => do return { h with available := ← Reader.resources d }⟩]

/-- The heartbeat that a text holds. -/
def Heartbeat.ofText : String → Except ReadFault Heartbeat :=
  Reader.ofText (Reader.group fields { node := ⟨""⟩ })

/-- The demand that a text holds. -/
def Demand.ofText : String → Except ReadFault (Demand Float) :=
  Reader.ofText (Reader.group
    [⟨"bundles", true, fun _ d => Reader.list Reader.resources d⟩] [])

/-- Whether an amount may be fed. -/
def isFeedable (amount : Float) : Bool := amount.isFinite && !(amount < 0)

/-- Refuse resources for their first amount that may not be fed. -/
def checkAmounts (part : String) (r : Resources Float) : Except Refusal Unit :=
  match r.toList.find? (fun e => !isFeedable e.2) with
  | some (resource, amount) => .error (.badAmount part resource amount)
  | none => .ok ()

/-- Refuse bundles for the first amount that may not be fed; `i` counts the bundles. -/
def checkBundles (i : Nat) : Demand Float → Except Refusal Unit
  | [] => .ok ()
  | b :: rest => do
    checkAmounts ("bundle " ++ natText i) b
    checkBundles (i + 1) rest

/-- What becomes of a command. -/
inductive Enqueuing where
  | taken (feeds : Feeds)
  | refused (why : Refusal)
  /-- It waits for room in the queue. -/
  | waiting

namespace Feeds

/-- How many commands may wait for a tick. -/
def queueCapacity : Nat := 16

/-- Take in a heartbeat. -/
def beat (f : Feeds) (h : Heartbeat) (now : Nat) : Except Refusal Feeds :=
  if h.node.text.isEmpty then .error .emptyNodeId
  else do
    checkAmounts "used" h.used
    checkAmounts "available" h.available
    match f.loads.recordHeartbeat h.node h.used h.available now with
    | (loads, true) => return { f with loads }
    | (_, false) => throw .outdatedHeartbeat

/-- Replace the demand. -/
def setDemand (f : Feeds) (demand : Demand Float) : Except Refusal Feeds := do
  checkBundles 0 demand
  return { f with demand }

/-- Let a command wait for the next tick. -/
def enqueue (f : Feeds) (loopRuns : Bool) (c : ControlCommand) : Enqueuing :=
  if !loopRuns then .refused .loopNotRunning
  else if f.commands.length < queueCapacity then .taken { f with commands := f.commands ++ [c] }
  else .waiting

/-- The configuration to change to: the one in the file, unless it is that of another cluster than
the published one. -/
def proposal (f : Feeds) (files : FileStore) (lookup : String → Option String)
    (path : Option String) : Except Refusal ClusterConfig :=
  match path with
  | none => .error .noConfigFile
  | some path =>
    match ClusterConfig.ofFile files lookup path with
    | .error e => .error (.badConfig e)
    | .ok c =>
      let current := f.status.clusterName
      if !current.isEmpty && current != c.clusterName then
        .error (.clusterRenamed current c.clusterName)
      else .ok c

end Feeds

end ClusterScaler
