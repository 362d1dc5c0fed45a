import ClusterScaler.ControlLoop.State
import ClusterScaler.Demand.Targets

/-!
# Planning a tick

What a tick decides from the nodes that the provider reported: which states they are in, which of
them must go, which are more than their type needs, how many are missing, and which ones an
updater has to bring up to date. Nothing here asks the provider anything.
-/

set_option autoImplicit false

namespace ClusterScaler

/-- A node as the provider reported it. -/
structure NodeRecord where
  id : NodeId
  tags : Tags
  running : Bool

/-- The node type that a node is tagged with. -/
def NodeRecord.nodeType? (n : NodeRecord) : Option String := n.tags.get? Tags.nodeType

/-- The node type under which a node is shown. -/
def NodeRecord.shownType (n : NodeRecord) : String := n.nodeType?.getD "unknown"

/-- Why a node has to be terminated. -/
inductive TerminationReason where
  | unknownType
  | updateFailed
  | launchDrift
  | heartbeatStale
  | excess
  deriving DecidableEq, Repr

/-- A request for nodes of one type. -/
structure LaunchOrder where
  template : LaunchConfig
  tags : Tags
  count : Nat
  /-- The most nodes to ask for at once. -/
  batch : Nat

/-- What became of a launch order. -/
structure LaunchReport where
  nodeType : String
  launched : Nat
  error : Option ProviderError

/-- Ask for nodes batch by batch, up to the first failure and for at most `fuel` batches, when
`launched` of the nodes have been made. -/
def LaunchOrder.batches (o : LaunchOrder) : (fuel launched : Nat) → Routine LaunchReport
  | 0, launched => return ⟨o.template.nodeType, launched, none⟩
  | fuel + 1, launched =>
    if launched < o.count then do
      let n := min (o.count - launched) o.batch
      match ← Request.make (.createNodes o.template o.tags n) with
      | .error e => return ⟨o.template.nodeType, launched, some e⟩
      | .ok () => o.batches fuel (launched + n)
    else return ⟨o.template.nodeType, launched, none⟩

/-- Carry out a launch order. Every batch has at least one node. -/
def LaunchOrder.routine (o : LaunchOrder) : Routine LaunchReport := o.batches o.count 0

/-- Where other nodes find the head node. -/
inductive HeadAddress where
  | known (address : String)
  /-- There is a head node, but it cannot be reached yet. -/
  | pending
  | absent

/-- The limits of the configured node types. -/
def ClusterConfig.limits (c : ClusterConfig) : Table String (TypeLimits Float) :=
  c.nodeTypes.mapValues (fun _ t => ⟨t.minWorkers, t.maxWorkers, t.resources⟩)

namespace ControlLoop

/-- Whether an updater of a node is in flight. -/
def isUpdating (l : ControlLoop) (node : NodeId) : Bool := l.updaters.isUpdating node

/-- The hashes of the node type that a node is tagged with, if it is configured. -/
def hashesFor? (l : ControlLoop) (n : NodeRecord) : Option NodeTypeHashes :=
  n.nodeType?.bind l.hashes.get?

/-- Whether a node carries both hashes of its type. -/
def isUpToDate (l : ControlLoop) (n : NodeRecord) : Bool :=
  match l.hashesFor? n with
  | some h =>
    n.tags.get? Tags.launchConfig == some h.launch.hex
      && n.tags.get? Tags.fileSync == some h.files.hex
  | none => false

/-- The state of a node as it follows from what the provider reported. -/
def observed (l : ControlLoop) (n : NodeRecord) : NodeState :=
  if l.isUpdating n.id then .updating
  else if !n.running then .pending
  else if l.isUpToDate n then .ready
  else .runningUnconfigured

/-- Forget the nodes that are gone and set the states of the others. -/
def observe (l : ControlLoop) (nodes : List NodeRecord) : ControlLoop :=
  let live := nodes.map (·.id)
  let kept := l.states.filter (fun id _ => live.contains id)
  { l with
    tainted := l.tainted.filter live.contains
    states := nodes.foldl (fun t n => t.insert n.id (l.observed n)) kept }

/-- Drop the load records of nodes that are gone, and start the heartbeat clock of ready nodes that
never reported. -/
def refreshLoads (l : ControlLoop) (nodes : List NodeRecord) (now : Nat) : ControlLoop :=
  let (loads, _) := l.loads.prune (nodes.map (·.id))
  { l with
    loads := nodes.foldl
      (fun loads n =>
        if l.states.get? n.id == some .ready then loads.markActive n.id now else loads) loads }

/-- Why a node has to go whatever the demand is. A node with an updater in flight stays. -/
def forcedReason (l : ControlLoop) (now : Nat) (n : NodeRecord) : Option TerminationReason :=
  if l.isUpdating n.id then none
  else
    match l.hashesFor? n with
    | none => some .unknownType
    | some h =>
      if l.tainted.contains n.id
          || n.tags.get? Tags.nodeStatus == some BootstrapStatus.updateFailed.text then
        some .updateFailed
      else if n.tags.get? Tags.launchConfig != some h.launch.hex then some .launchDrift
      else if l.loads.isStale n.id now then some .heartbeatStale
      else none

/-- A node as planning sees it. A node that has reported nothing counts with the resources of its
type. -/
def capacityOf (l : ControlLoop) (now : Nat) (n : NodeRecord) : NodeCapacity Float :=
  let nodeType := n.nodeType?.getD ""
  let load := (l.loads.get? n.id).filter (fun load => !load.total.isEmpty)
  { nodeType
    available := match load with
      | some load => load.available
      | none => ((l.config.nodeType? nodeType).map (·.resources)).getD ∅
    utilization := load.map (·.utilization)
    idle := match l.loads.idleFor n.id now with
      | some idle => l.config.tunables.idleTimeout < idle
      | none => false }

/-- A node that may be given up, with what decides its turn. -/
structure Candidate where
  idle : Bool
  utilization : Float
  id : NodeId

/-- Whether a candidate is given up before another: idle ones first, then the less utilized. -/
def Candidate.precedes (a b : Candidate) : Bool :=
  if a.idle == b.idle then totalLe a.utilization b.utilization else a.idle

/-- Put a candidate behind those that go before it or are its equals. -/
def insertCandidate (c : Candidate) : List Candidate → List Candidate
  | [] => [c]
  | d :: rest => if d.precedes c then d :: insertCandidate c rest else c :: d :: rest

/-- Candidates in the order in which they are given up; equals keep their order. -/
def sortCandidates (cs : List Candidate) : List Candidate :=
  cs.foldl (fun sorted c => insertCandidate c sorted) []

/-- The nodes of one type, as candidates. A node without utilization counts as fully busy. -/
def candidatesOf (healthy : List (NodeRecord × NodeCapacity Float)) (nodeType : String) :
    List Candidate :=
  healthy.filterMap fun (n, cap) =>
    if n.nodeType? = some nodeType then some ⟨cap.idle, cap.utilization.getD 1.0, n.id⟩ else none

/-- The nodes of one type above its target. A node with an updater in flight is counted but not
given up. -/
def excessOf (l : ControlLoop) (healthy : List (NodeRecord × NodeCapacity Float))
    (nodeType : String) (target : Nat) : List NodeId :=
  let candidates := candidatesOf healthy nodeType
  let free := candidates.filter (fun c => !l.isUpdating c.id)
  ((sortCandidates free).take (candidates.length - target)).map (·.id)

/-- The nodes above the targets of their types. -/
def planExcess (l : ControlLoop) (healthy : List (NodeRecord × NodeCapacity Float))
    (targets : Table String Nat) : List NodeId :=
  targets.entries.flatMap (fun (nodeType, target) => l.excessOf healthy nodeType target)

/-- Share a budget of new nodes among types in order, each up to what it lacks. -/
def grant (lacking : List (String × Nat)) (budget : Nat) : List (String × Nat) :=
  match lacking with
  | [] => []
  | (nodeType, lack) :: rest =>
    let n := min lack budget
    if n = 0 then grant rest budget else (nodeType, n) :: grant rest (budget - n)

/-- How many nodes each type lacks to its target, the head type first. -/
def lacking (l : ControlLoop) (nodes : List NodeRecord) (targets : Table String Nat) :
    List (String × Nat) :=
  l.config.nodeTypeOrder.map fun nodeType =>
    (nodeType, countOf targets nodeType - nodes.countP (·.nodeType? = some nodeType))

/-- The new nodes to ask for: what the types lack, as far as pending and new nodes together stay
within the limit. -/
def planLaunches (l : ControlLoop) (nodes : List NodeRecord) (targets : Table String Nat) :
    List (String × Nat) :=
  let pending := nodes.countP (fun n => !n.running)
  grant (l.lacking nodes targets) (l.config.tunables.maxConcurrentLaunches - pending)

/-- The tags of a new node. -/
def launchTags (l : ControlLoop) (nodeType : String) (hashes : NodeTypeHashes) : Tags :=
  Table.ofList [(Tags.clusterName, l.config.clusterName), (Tags.nodeType, nodeType),
    (Tags.nodeName, l.config.clusterName ++ "-" ++ nodeType),
    (Tags.nodeStatus, BootstrapStatus.uninitialized.text),
    (Tags.launchConfig, hashes.launch.hex)]

/-- The order for new nodes of a configured type. -/
def launchOrder? (l : ControlLoop) (nodeType : String) (count : Nat) : Option LaunchOrder := do
  let template ← LaunchConfig.ofNodeType? l.config nodeType
  let hashes ← l.hashes.get? nodeType
  return ⟨template, l.launchTags nodeType hashes, count, max l.config.tunables.maxLaunchBatch 1⟩

/-- The hashes of a node whose files are behind and that an updater may bring up to date. -/
def behind? (l : ControlLoop) (n : NodeRecord) : Option (String × NodeTypeHashes) := do
  if !n.running || l.isUpdating n.id || l.tainted.contains n.id then none
  else
    let nodeType ← n.nodeType?
    let hashes ← l.hashes.get? nodeType
    if n.tags.get? Tags.launchConfig != some hashes.launch.hex
        || n.tags.get? Tags.nodeStatus == some BootstrapStatus.updateFailed.text
        || n.tags.get? Tags.fileSync == some hashes.files.hex then none
    else some (nodeType, hashes)

/-- The update that brings a node to its files hash, told where the head node is if it has to
know. -/
def updateFor (l : ControlLoop) (node : NodeId) (nodeType : String) (hashes : NodeTypeHashes)
    (head : Option String) : Update :=
  let recipe := Bootstrap.recipe l.config nodeType
  { request :=
      { node, nodeType
        mounts := l.config.fileMountsFor nodeType
        commands := match head with
          | some address => Bootstrap.withHeadAddress recipe address
          | none => recipe
        targetHash := hashes.files }
    auth := l.config.auth
    timeout := l.config.tunables.updateTimeoutDuration
    pollInterval := l.pollInterval
    retry := l.retry }

/-- The node in a status report. -/
def viewOf (l : ControlLoop) (loads : LoadStore Float) (now : Nat) (n : NodeRecord) : NodeView :=
  { id := n.id
    nodeType := n.shownType
    state := (l.states.get? n.id).getD .pending
    heartbeatAge := (loads.get? n.id).map (fun load => now - load.lastHeartbeat) }

/-- A node that was terminated in this tick in a status report. -/
def departedView (n : NodeRecord) : NodeView := ⟨n.id, n.shownType, .removed, none⟩

/-- Publish the status after a tick: the nodes that stayed, and once more those that went. -/
def publish (l : ControlLoop) (survivors departed : List NodeRecord) (loads : LoadStore Float)
    (now : Nat) (summary : TickSummary) : ControlLoop :=
  { l with
    status :=
      { clusterName := l.config.clusterName
        ticks := l.ticks
        nodesByType := survivors.foldl (fun t n => t.upsert n.shownType 0 (· + 1)) ∅
        nodes := survivors.map (l.viewOf loads now) ++ departed.map departedView
        updatersInFlight := l.updaters.inFlight
        launchedTotal := l.launched
        terminatedTotal := l.terminated
        updateFailuresTotal := l.updateFailures
        breaker := l.breaker.state
        lastTick := some summary
        lastError := none } }

end ControlLoop

end ClusterScaler
