import ClusterScaler.ControlLoop.Plan

/-!
# Ticks

One tick of the control loop: apply the commands of operators, merge the outcomes of updaters, read
the nodes from the provider, terminate what must go and what is too much, ask for what is missing
unless the breaker has tripped, send out updaters, and publish the status.

A tick is a program. Each of its questions shows the loop as it stands, which is what remains of
the tick if it is cut short there. Answers that may take time come with the ends of the updaters
that ended meanwhile.
-/

set_option autoImplicit false

namespace ClusterScaler

/-- What a tick asks. -/
inductive Question where
  | request (r : Request)
  /-- Start an updater. -/
  | dispatch (u : Update)
  /-- Stop the updaters of nodes. -/
  | abandon (nodes : List NodeId)
  /-- Start a launch order. -/
  | launch (order : LaunchOrder)
  /-- Wait for the next launch order to end. -/
  | awaitLaunch

/-- How a launch order ended. -/
inductive LaunchEnd where
  | reported (report : LaunchReport)
  /-- It broke down. -/
  | panicked

/-- An answer that may have taken time, with the ends of updaters that came meanwhile. -/
structure Delivered (α : Type) where
  answer : α
  ended : List (NodeId × UpdaterEnd)

/-- The answer to a question. -/
@[reducible]
def Question.Reply : Question → Type
  | request r => Delivered r.Reply
  | dispatch _ | abandon _ | launch _ => Unit
  | awaitLaunch => Delivered LaunchEnd

/-- A question together with the loop as it stands. -/
structure TickAsk where
  loop : ControlLoop
  question : Question

/-- The answer to a question of a tick. -/
abbrev TickAsk.Reply (a : TickAsk) : Type := a.question.Reply

/-- Part of a tick. -/
abbrev TickM := StateT ControlLoop (Program TickAsk TickAsk.Reply)

namespace TickM

/-- Ask a question. -/
def ask (q : Question) : TickM q.Reply := fun l => .ask ⟨l, q⟩ (fun r => .done (r, l))

/-- Take an answer and the ends that came with it. -/
def receive {α : Type} (d : Delivered α) : TickM α := do
  modify (·.complete d.ended)
  return d.answer

/-- Make a request. -/
def request (r : Request) : TickM r.Reply := do receive (← ask (.request r))

/-- Pause for a time. -/
def pause (d : Duration) : TickM Unit := request (.pause d)

/-- Repeat a provider call under the policy of the loop. -/
def retrying {α : Type} (call : TickM (ProviderResult α)) : TickM (ProviderResult α) := do
  (← get).retry.withRetries pause call

end TickM

open TickM

namespace ControlLoop

/-- Merge the outcome of an updater: a node that was brought up to date is heard from now, and one
that could not be is tainted. -/
def mergeOutcome (now : Nat) (state : TickSummary × ControlLoop) (o : UpdateOutcome) :
    TickSummary × ControlLoop :=
  let (s, l) := state
  match o.result with
  | .ok () =>
    ({ s with updatesSucceeded := s.updatesSucceeded + 1 },
      { l with
        loads := l.loads.markActive o.node now
        states := l.states.insert o.node .ready })
  | .error _ =>
    ({ s with updatesFailed := s.updatesFailed + 1 },
      { l with
        updateFailures := l.updateFailures + 1
        tainted := l.tainted ++ [o.node] })

/-- Start a tick: count it, age the breaker, apply the commands that wait. -/
def beginTick (l : ControlLoop) (files : FileStore) : ControlLoop :=
  let ticks := l.ticks + 1
  { l with ticks, breaker := l.breaker.advance ticks }.applyCommands files

/-- Merge the outcomes that are at hand at a time of the updaters' clock. -/
def mergeUpdates (l : ControlLoop) (now : Nat) (time : Duration) (s : TickSummary) :
    TickSummary × ControlLoop :=
  let (collected, updaters) := l.updaters.collect time
  let outcomes := l.finished ++ collected
  outcomes.foldl (mergeOutcome now) (s, { l with updaters, finished := [] })

/-- Count a provider failure. -/
def countFailure (state : TickSummary × ControlLoop) : TickSummary × ControlLoop :=
  let (s, l) := state
  ({ s with providerFailures := s.providerFailures + 1 },
    { l with breaker := (l.breaker.recordFailure l.ticks).1 })

/-- Count launched nodes. -/
def countLaunched (n : Nat) (state : TickSummary × ControlLoop) : TickSummary × ControlLoop :=
  let (s, l) := state
  if n = 0 then state
  else
    ({ s with launched := s.launched + n },
      { l with launched := l.launched + n, breaker := l.breaker.recordSuccess })

/-- Merge the end of a launch order: first what was launched, then the failure. -/
def mergeLaunch (state : TickSummary × ControlLoop) : LaunchEnd → TickSummary × ControlLoop
  | .panicked => countFailure state
  | .reported r =>
    let state := countLaunched r.launched state
    if r.error.isSome then countFailure state else state

/-- Note the states of nodes. -/
def markAll (l : ControlLoop) (state : NodeState) (nodes : List NodeId) : ControlLoop :=
  { l with states := nodes.foldl (fun t id => t.insert id state) l.states }

/-- Take note of nodes that the provider has terminated. -/
def removeAll (l : ControlLoop) (nodes : List NodeId) : ControlLoop :=
  { l.markAll .removed nodes with
    loads := nodes.foldl LoadStore.remove l.loads
    tainted := l.tainted.filter (!nodes.contains ·)
    terminated := l.terminated + nodes.length }

end ControlLoop

namespace Tick

/-- Read the tags and the state of a node. A node that cannot be read is passed over. -/
def readNode (id : NodeId) : TickM (Option NodeRecord) := do
  match ← retrying (request (.nodeTags id)) with
  | .error _ => return none
  | .ok tags =>
    match ← retrying (request (.isRunning id)) with
    | .error _ => return none
    | .ok running => return some ⟨id, tags, running⟩

/-- Read listed nodes in turn. A node that is listed again ends the tick. -/
def readNodes (seen : List NodeId) : List NodeId → TickM (Except LoopError (List NodeRecord))
  | [] => return .ok []
  | id :: rest =>
    if seen.contains id then return .error (.listedTwice id)
    else do
      let node ← readNode id
      match ← readNodes (id :: seen) rest with
      | .error e => return .error e
      | .ok nodes => return .ok (node.toList ++ nodes)

/-- The nodes of the cluster as the provider reports them. -/
def reconcile : TickM (Except LoopError (List NodeRecord)) := do
  let filter := Table.ofList [(Tags.clusterName, (← get).config.clusterName)]
  match ← retrying (request (.listNodes filter)) with
  | .error e => return .error (.provider e)
  | .ok ids => readNodes [] ids

/-- Ask for all terminations of a tick in one call, and tell which nodes are gone. -/
def terminate (doomed : List NodeId) (s : TickSummary) : TickM (List NodeId × TickSummary) := do
  if doomed.isEmpty then return ([], s)
  else
    modify (·.markAll .terminating doomed)
    match ← retrying (request (.terminateNodes doomed)) with
    | .ok () =>
      modify (·.removeAll doomed)
      return (doomed, { s with terminated := s.terminated + doomed.length })
    | .error _ =>
      let (s, l) := ControlLoop.countFailure (s, ← get)
      set l
      return ([], s)

/-- Start launch orders. -/
def startLaunches : List LaunchOrder → TickM Unit
  | [] => return ()
  | order :: rest => do
    ask (.launch order)
    startLaunches rest

/-- Merge the ends of so many launch orders as they come. -/
def awaitLaunches : Nat → TickSummary → TickM TickSummary
  | 0, s => return s
  | n + 1, s => do
    let ended ← receive (← ask .awaitLaunch)
    let (s, l) := ControlLoop.mergeLaunch (s, ← get) ended
    set l
    awaitLaunches n s

/-- Ask for missing nodes, all types at once. -/
def launch (deficits : List (String × Nat)) (s : TickSummary) : TickM TickSummary := do
  let l ← get
  let orders := deficits.filterMap (fun (nodeType, n) => l.launchOrder? nodeType n)
  startLaunches orders
  awaitLaunches orders.length s

/-- Ask for missing nodes unless the breaker has tripped. -/
def launchUnlessTripped (deficits : List (String × Nat)) (s : TickSummary) :
    TickM TickSummary := do
  if deficits.isEmpty then return s
  else if (← get).breaker.tripped then return { s with launchesBlocked := true }
  else launch deficits s

/-- Find out where the head node is. -/
def headAddress (nodes : List NodeRecord) : TickM HeadAddress := do
  let headType := (← get).config.headNodeType
  let heads := nodes.filter (·.nodeType? = some headType)
  match heads.find? (·.running) with
  | none => return if heads.isEmpty then .absent else .pending
  | some head =>
    match ← retrying (request (.internalIp head.id)) with
    | .ok address => return .known address
    | .error _ => return .pending

/-- Find out where the head node is, unless that is known already. -/
def knownHead (nodes : List NodeRecord) : Option HeadAddress → TickM HeadAddress
  | some head => return head
  | none => headAddress nodes

/-- Send an updater to a node. -/
def dispatch (time : Duration) (n : NodeRecord) (nodeType : String) (hashes : NodeTypeHashes)
    (head : Option String) (s : TickSummary) : TickM TickSummary := do
  let l ← get
  let u := l.updateFor n.id nodeType hashes head
  match l.updaters.dispatch? u time with
  | none => return s
  | some updaters =>
    set { l with updaters, states := l.states.insert n.id .updating }
    ask (.dispatch u)
    return { s with updatersDispatched := s.updatersDispatched + 1 }

/-- Send updaters to the nodes whose files are behind. Nodes other than head nodes wait until the
head node can be reached, if there is one; `head` is what is known about it so far. -/
def dispatchAll (time : Duration) (all : List NodeRecord) (head : Option HeadAddress) :
    List NodeRecord → TickSummary → TickM TickSummary
  | [], s => return s
  | n :: rest, s => do
    let l ← get
    match l.behind? n with
    | none => dispatchAll time all head rest s
    | some (nodeType, hashes) =>
      if l.config.isHead nodeType then
        let s ← dispatch time n nodeType hashes none s
        dispatchAll time all head rest s
      else
        let head ← knownHead all head
        match head with
        | .known address =>
          let s ← dispatch time n nodeType hashes (some address) s
          dispatchAll time all (some head) rest s
        | .pending => dispatchAll time all (some head) rest s
        | .absent =>
          let s ← dispatch time n nodeType hashes none s
          dispatchAll time all (some head) rest s

/-- The part of a tick after the nodes have been read. -/
def afterReconcile (now : Nat) (time : Duration) (nodes : List NodeRecord) (s : TickSummary) :
    TickM TickSummary := do
  modify fun l => (l.observe nodes).refreshLoads nodes now
  let l ← get
  let loads := l.loads
  let forced := nodes.filter (fun n => (l.forcedReason now n).isSome)
  let healthy := (nodes.filter (fun n => (l.forcedReason now n).isNone)).map
    (fun n => (n, l.capacityOf now n))
  let targets := computeTargets l.config.limits (healthy.map (·.2)) l.demand
    l.config.tunables.targetUtilization
  let excess := l.planExcess healthy targets
  let doomed := forced.map (·.id) ++ excess
  let (removed, s) ← terminate doomed s
  let departed := nodes.filter (removed.contains ·.id)
  let survivors := nodes.filter (!removed.contains ·.id)
  let remaining := (healthy.map (·.1)).filter (!excess.contains ·.id)
  let s ← launchUnlessTripped (l.planLaunches remaining targets) s
  let updatable := survivors.filter (!doomed.contains ·.id)
  let s ← dispatchAll time updatable none updatable s
  let s := { s with nodes := survivors.length, targets }
  modify (·.publish survivors departed loads now s)
  return s

end Tick

/-- One tick. `now` is the time of heartbeats in seconds and `time` that of the updater pool. -/
def tick (files : FileStore) (now : Nat) (time : Duration) :
    TickM (Except LoopError TickSummary) := do
  modify (·.beginTick files)
  let overdue := (← get).updaters.overdue time
  ask (.abandon overdue)
  let (s, l) := (← get).mergeUpdates now time (TickSummary.start (← get).ticks now)
  set l
  match ← Tick.reconcile with
  | .error e => return .error e
  | .ok nodes => return .ok (← Tick.afterReconcile now time nodes s)

end ClusterScaler
